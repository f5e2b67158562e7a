import Mathlib.Data.List.Induction
import SessionBroker.Proofs.Debounce

/-!
What a debouncer answers to any sequence of calls.

A tally is kept of nothing but the calls and the answers: which notifications have come since the
last recompile, how many windows they have opened, how many recompiles there were. The debouncer
keeps two instants only, and `Debouncer.Agrees` says that these are a function of the tally: its
notifications make the window (`Debouncer.Makes`). Every call keeps that (`Agrees.call`). Main
statement: `window_closed_form`.
-/

namespace SessionBroker

namespace Debouncer

/-- A call of a debouncer, with the instant of it. -/
inductive Call where
  | notify (now : Duration)
  | poll (now : Duration)
  deriving DecidableEq, Repr

def Call.time : Call → Duration
  | .notify now => now
  | .poll now => now

/-- No call is earlier than the one before it. -/
def InOrder (calls : List Call) : Prop := calls.Pairwise fun a b => a.time ≤ b.time

/-- Whether a call is answered with a recompile, and the debouncer after it. -/
def call (d : Debouncer) : Call → Bool × Debouncer
  | .notify now => (false, d.notify now)
  | .poll now => d.poll now

def after (d : Debouncer) (calls : List Call) : Debouncer :=
  calls.foldl (fun d c => (d.call c).2) d

def answers (d : Debouncer) : List Call → List (Call × Bool)
  | [] => []
  | c :: calls => (c, (d.call c).1) :: (d.call c).2.answers calls

/-- What a listener makes of the calls and answers. -/
structure Tally where
  /-- The instants of the notifications since the last recompile, the oldest one first. -/
  waiting : List Duration
  /-- How many windows were opened, each by the first notification since a recompile. -/
  opened : Nat
  /-- How many polls were answered with a recompile. -/
  recompiles : Nat
  deriving DecidableEq, Repr

namespace Tally

def empty : Tally := ⟨[], 0, 0⟩

def note (l : Tally) : Call × Bool → Tally
  | (.notify now, _) =>
    { l with waiting := l.waiting ++ [now], opened := l.opened + if l.waiting = [] then 1 else 0 }
  | (.poll _, true) => { l with waiting := [], recompiles := l.recompiles + 1 }
  | (.poll _, false) => l

def ofAnswers (answers : List (Call × Bool)) : Tally := answers.foldl note empty

/-- As long as there is no recompile, notifications only get more. -/
theorem waiting_prefix (l : Tally) {more : List (Call × Bool)} (quiet : ∀ a ∈ more, a.2 = false) :
    l.waiting <+: (more.foldl note l).waiting := by
  induction more generalizing l with
  | nil => exact List.prefix_refl _
  | cons a more ih =>
      have later := ih (l.note a) fun b mem => quiet b (.tail _ mem)
      refine List.IsPrefix.trans ?_ later
      obtain ⟨c, answer⟩ := a
      obtain rfl : answer = false := quiet _ (.head _)
      cases c with
      | notify now => exact List.prefix_append _ _
      | poll now => exact List.prefix_refl _

end Tally

variable {d : Debouncer} {l : Tally} {calls more : List Call} {c : Call}

theorem after_append (d : Debouncer) (calls more : List Call) :
    d.after (calls ++ more) = (d.after calls).after more :=
  List.foldl_append

/-- Calls after others are answered by the debouncer that those have left. -/
theorem answers_append (d : Debouncer) (calls more : List Call) :
    d.answers (calls ++ more) = d.answers calls ++ (d.after calls).answers more := by
  induction calls generalizing d with
  | nil => rfl
  | cons c calls ih => exact congrArg (_ :: ·) (ih _)

def tally (d : Debouncer) (calls : List Call) : Tally := .ofAnswers (d.answers calls)

/-- The tally of more calls goes on from that of the first ones. -/
theorem tally_append (d : Debouncer) (calls more : List Call) :
    d.tally (calls ++ more) = ((d.after calls).answers more).foldl Tally.note (d.tally calls) := by
  rw [tally, Tally.ofAnswers, answers_append, List.foldl_append]
  rfl

theorem call_frame (d : Debouncer) (c : Call) :
    (d.call c).2.delay = d.delay ∧ (d.call c).2.maxDelay = d.maxDelay := by
  cases c with
  | notify now => exact ⟨notify_delay, notify_maxDelay⟩
  | poll now =>
      cases due : (d.poll now).1 with
      | true => simp only [call, poll_snd due, and_self]
      | false => simp only [call, poll_snd_of_early due, and_self]

theorem after_frame (d : Debouncer) (calls : List Call) :
    (d.after calls).delay = d.delay ∧ (d.after calls).maxDelay = d.maxDelay := by
  induction calls generalizing d with
  | nil => exact ⟨rfl, rfl⟩
  | cons c calls ih =>
      obtain ⟨delay, maxDelay⟩ := d.call_frame c
      exact ⟨(ih _).1.trans delay, (ih _).2.trans maxDelay⟩

/-! ### Runs -/

/-- The window is the one of the notifications in the tally, and every window before it has been
closed by one recompile. -/
structure Agrees (d : Debouncer) (l : Tally) : Prop where
  window : Makes d.delay d.maxDelay l.waiting d.window
  count : l.opened = l.recompiles + if l.waiting = [] then 0 else 1

/-- Every call keeps the debouncer and the tally together. -/
theorem Agrees.call (agrees : d.Agrees l) (short : d.delay < d.maxDelay)
    (past : ∀ t ∈ l.waiting, t ≤ c.time) : (d.call c).2.Agrees (l.note (c, (d.call c).1)) := by
  obtain ⟨delay, maxDelay⟩ := d.call_frame c
  cases c with
  | notify now =>
      refine ⟨?_, ?_⟩
      · rw [delay, maxDelay]
        exact agrees.window.notify short past
      · have some_ : l.waiting ++ [now] ≠ [] := by simp
        simp only [Tally.note, agrees.count, some_, if_false]
        split <;> rfl
  | poll now =>
      cases due : (d.poll now).1 with
      | true =>
          obtain ⟨t, mem, -⟩ := agrees.window.of_due due
          have some_ := List.ne_nil_of_mem mem
          refine ⟨?_, ?_⟩
          · simp only [Debouncer.call, due, Tally.note, poll_snd due]
            exact .idle
          · simp only [Debouncer.call, due, Tally.note, agrees.count, if_neg some_, if_true]
      | false =>
          simp only [Debouncer.call, due, Tally.note, poll_snd_of_early due]
          exact agrees

/-- What a tally knows of notifications is from the calls. -/
theorem exists_of_waiting (d : Debouncer) (calls : List Call) :
    ∀ t ∈ (d.tally calls).waiting, ∃ c ∈ calls, c.time = t := by
  induction calls using List.reverseRecOn with
  | nil => simp [tally, Tally.ofAnswers, answers, Tally.empty]
  | append_singleton calls c ih =>
      have older (t : Duration) (mem : t ∈ (d.tally calls).waiting) :
          ∃ b ∈ calls ++ [c], b.time = t := by
        obtain ⟨b, known, same⟩ := ih t mem
        exact ⟨b, List.mem_append_left _ known, same⟩
      intro t mem
      rw [tally_append] at mem
      cases c with
      | notify now =>
          rcases List.mem_append.mp mem with old | new
          · exact older t old
          · exact ⟨.notify now, by simp, (List.mem_singleton.mp new).symm⟩
      | poll now =>
          cases due : ((d.after calls).poll now).1 with
          | true => simp [answers, Debouncer.call, due, Tally.note] at mem
          | false =>
              simp only [answers, Debouncer.call, due, Tally.note, List.foldl_cons,
                List.foldl_nil] at mem
              exact older t mem

/-- After any calls in order the debouncer agrees with the tally. -/
theorem agrees_after (idle : d.window = .idle) (short : d.delay < d.maxDelay)
    (inOrder : InOrder calls) : (d.after calls).Agrees (d.tally calls) := by
  induction calls using List.reverseRecOn with
  | nil =>
      refine ⟨?_, rfl⟩
      change Makes _ _ [] d.window
      rw [idle]
      exact .idle
  | append_singleton calls c ih =>
      obtain ⟨before, -, ordered⟩ := List.pairwise_append.mp inOrder
      obtain ⟨delay, maxDelay⟩ := d.after_frame calls
      have past : ∀ t ∈ (d.tally calls).waiting, t ≤ c.time := by
        intro t mem
        obtain ⟨b, known, rfl⟩ := d.exists_of_waiting calls t mem
        exact ordered b known c (.head _)
      rw [after_append, tally_append]
      exact (ih before).call (by rw [delay, maxDelay]; exact short) past

/-! ### The closed form -/

/-- What holds of a debouncer after some calls. -/
structure ClosedForm (d : Debouncer) (calls : List Call) : Prop where
  /-- The debouncer is idle exactly if there was no notification since the last recompile. -/
  idle : (d.after calls).window = .idle ↔ (d.tally calls).waiting = []
  /-- Else the first one has opened the window, and the recompile is due after the latest one
  that leaves it within the bound. -/
  pending : ∀ start later, (d.tally calls).waiting = start :: later →
    ∃ n ∈ start :: later, n + d.delay ≤ start + d.maxDelay ∧
      (∀ m ∈ start :: later, m + d.delay ≤ start + d.maxDelay → m ≤ n) ∧
      (d.after calls).window = .pending (n + d.delay) start
  bounds : ∀ fireAt start, (d.after calls).window = .pending fireAt start →
    start + d.delay ≤ fireAt ∧ fireAt ≤ start + d.maxDelay
  /-- As long as there is no recompile, the window stays and its deadline does not move back. -/
  forward : ∀ more, InOrder (calls ++ more) →
    (∀ a ∈ (d.after calls).answers more, a.2 = false) →
    ∀ fireAt start, (d.after calls).window = .pending fireAt start →
      ∃ later, fireAt ≤ later ∧ (d.after (calls ++ more)).window = .pending later start
  /-- A poll is answered with a recompile exactly if one is pending and its time has come. -/
  due : ∀ now, ((d.after calls).poll now).1 = true ↔
    ∃ fireAt start, (d.after calls).window = .pending fireAt start ∧ fireAt ≤ now
  /-- Once the greatest delay is over, it is. -/
  overdue : ∀ fireAt start now, (d.after calls).window = .pending fireAt start →
    start + d.maxDelay ≤ now → ((d.after calls).poll now).1 = true
  /-- Every window was closed by one recompile, apart from the pending one. -/
  once : (d.tally calls).opened =
    (d.tally calls).recompiles + if (d.after calls).window = .idle then 0 else 1

/-- A pending window starts with its first notification, and its deadline is within the bounds. -/
theorem Makes.bounds {delay maxDelay fireAt start : Duration} {waiting : List Duration}
    (makes : Makes delay maxDelay waiting (.pending fireAt start)) (short : delay ≤ maxDelay) :
    start + delay ≤ fireAt ∧ fireAt ≤ start + maxDelay := by
  cases makes with
  | pending mem fits latest =>
      have first := latest start (.head _) (Nat.add_le_add_left short _)
      exact ⟨Nat.add_le_add_right first _, fits⟩

/-- With more notifications the window starts where it did, and its deadline is not earlier. -/
theorem Makes.forward {delay maxDelay fireAt start : Duration} {waiting more : List Duration}
    {window : Window} (makes : Makes delay maxDelay waiting (.pending fireAt start))
    (later : Makes delay maxDelay more window) (grown : waiting <+: more) :
    ∃ deadline, fireAt ≤ deadline ∧ window = .pending deadline start := by
  obtain ⟨rest, rfl⟩ := grown
  cases makes with
  | @pending start n others mem fits latest =>
      cases later with
      | @pending _ n' _ mem' fits' latest' =>
          have known : n ∈ start :: others ++ rest := List.mem_append_left rest mem
          exact ⟨_, Nat.add_le_add_right (latest' n known fits) _, rfl⟩

/-- **The window of a debouncer is a function of the notifications since the last recompile.**
After any calls in the order of time it is pending from the first of them, until `delay` after the
latest one that leaves it within `maxDelay` of the first; so no deadline is too early, too late or
moved back, and each window is closed by exactly one poll. -/
theorem window_closed_form {delay maxDelay : Duration} (short : delay < maxDelay) :
    new? delay maxDelay = .ok ⟨delay, maxDelay, .idle⟩ ∧
      ∀ calls, InOrder calls → ClosedForm ⟨delay, maxDelay, .idle⟩ calls := by
  refine ⟨by rw [new?, if_pos short], fun calls inOrder => ?_⟩
  generalize made : (⟨delay, maxDelay, .idle⟩ : Debouncer) = d
  have idle : d.window = .idle := made ▸ rfl
  have short : d.delay < d.maxDelay := made ▸ short
  have agrees (calls : List Call) (inOrder : InOrder calls) :
      (d.after calls).Agrees (d.tally calls) := agrees_after idle short inOrder
  have makes (calls : List Call) (inOrder : InOrder calls) :
      Makes d.delay d.maxDelay (d.tally calls).waiting (d.after calls).window := by
    obtain ⟨sameDelay, sameMaxDelay⟩ := d.after_frame calls
    rw [← sameDelay, ← sameMaxDelay]
    exact (agrees calls inOrder).window
  have isIdle := (makes calls inOrder).window_eq_idle
  have bounds {fireAt start : Duration} (window : (d.after calls).window = .pending fireAt start) :
      start + d.delay ≤ fireAt ∧ fireAt ≤ start + d.maxDelay :=
    (window ▸ makes calls inOrder).bounds (Nat.le_of_lt short)
  refine ⟨isIdle, ?_, fun _ _ => bounds, ?_, fun now => poll_fst, ?_, ?_⟩
  · intro start later waiting
    have makes := makes calls inOrder
    rw [waiting] at makes
    generalize (d.after calls).window = window at makes
    cases makes with
    | pending mem fits latest => exact ⟨_, mem, fits, latest, rfl⟩
  · intro more inOrder' quiet fireAt start window
    have grown : (d.tally calls).waiting <+: (d.tally (calls ++ more)).waiting := by
      rw [tally_append]
      exact Tally.waiting_prefix _ quiet
    exact (window ▸ makes calls inOrder).forward (makes _ inOrder') grown
  · intro fireAt start now window passed
    exact poll_fst.mpr ⟨fireAt, start, window, Nat.le_trans (bounds window).2 passed⟩
  · simp only [isIdle]
    exact (agrees calls inOrder).count

/-- A burst whose last notification comes too late to move the deadline. -/
theorem window_closed_form_of_late_notification :
    let calls : List Call := [.notify 0, .poll 4, .notify 14, .notify 18, .poll 18]
    5 < 20 ∧ InOrder calls ∧ ClosedForm ⟨5, 20, .idle⟩ calls ∧
      (Debouncer.after ⟨5, 20, .idle⟩ calls).window = .pending 19 0 := by
  intro calls
  have inOrder : InOrder calls := by unfold InOrder; decide
  exact ⟨by decide, inOrder, (window_closed_form (by decide)).2 calls inOrder, by decide⟩

end Debouncer

end SessionBroker
