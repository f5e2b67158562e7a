import Mathlib.Data.List.Basic
import Mathlib.Data.List.Induction
import SessionBroker.Outbound.Readiness

/-!
When a registry answers.

The signals that a registry has noted say everything about it (`Noted`): as long as its target is
not met it knows which workers have signalled, and afterwards only that it has answered. So of
any sequence of signals at most one is answered, the first that meets the target
(`answers_new`).
-/

namespace SessionBroker

namespace Readiness

/-! ### Different workers -/

/-- The workers in `ws`, each of them once, in their fixed order. -/
def distinct (ws : List Worker) : List Worker := inOrder (ws.contains ·)

variable {n : Nat} {ws vs : List Worker} {w : Worker}

theorem mem_distinct : w ∈ distinct ws ↔ w ∈ ws := by
  have all : w ∈ Worker.all := by cases w <;> decide
  simp [distinct, inOrder, all]

/-- Nobody is listed twice, and the order is the fixed one. -/
theorem distinct_sublist (ws : List Worker) : (distinct ws).Sublist Worker.all :=
  List.filter_sublist

theorem nodup_distinct (ws : List Worker) : (distinct ws).Nodup :=
  (distinct_sublist ws).nodup (by decide)

/-- A signal that was given before adds no worker. -/
theorem distinct_concat_of_mem (mem : w ∈ ws) : distinct (ws ++ [w]) = distinct ws := by
  refine List.filter_congr fun v _ => ?_
  rw [Bool.eq_iff_iff]
  simp only [List.contains_iff_mem, List.mem_append, List.mem_singleton]
  exact ⟨fun either => either.elim id fun same => same ▸ mem, .inl⟩

theorem length_distinct_concat (unseen : w ∉ ws) :
    (distinct (ws ++ [w])).length = (distinct ws).length + 1 := by
  have same : (distinct (ws ++ [w])).Perm (w :: distinct ws) := by
    refine (List.perm_ext_iff_of_nodup (nodup_distinct _) ?_).mpr fun v => ?_
    · exact List.nodup_cons.mpr ⟨fun mem => unseen (mem_distinct.mp mem), nodup_distinct ws⟩
    · simp [mem_distinct, or_comm]
  rw [same.length_eq, List.length_cons]

/-- The signals of `ws` meet a target; no target is met by no signal. -/
def Complete (n : Nat) (ws : List Worker) : Prop := max n 1 ≤ (distinct ws).length

instance (n : Nat) (ws : List Worker) : Decidable (Complete n ws) :=
  inferInstanceAs (Decidable (max n 1 ≤ (distinct ws).length))

theorem not_complete_nil (n : Nat) : ¬ Complete n [] := by
  change ¬ max n 1 ≤ 0
  omega

theorem Complete.append (complete : Complete n ws) (vs : List Worker) : Complete n (ws ++ vs) := by
  refine Nat.le_trans complete (List.Sublist.length_le ?_)
  refine List.monotone_filter_right _ fun w mem => ?_
  rw [List.contains_iff_mem] at mem ⊢
  exact List.mem_append_left vs mem

/-- Only a worker that has not signalled before can meet a target. -/
theorem complete_concat_iff (missing : ¬ Complete n ws) :
    Complete n (ws ++ [w]) ↔ w ∉ ws ∧ n ≤ (distinct (ws ++ [w])).length := by
  by_cases mem : w ∈ ws
  · rw [Complete, distinct_concat_of_mem mem]
    exact ⟨fun complete => absurd complete missing, fun fresh => absurd mem fresh.1⟩
  · have one := length_distinct_concat mem
    rw [Complete]
    constructor
    · intro complete
      exact ⟨mem, by omega⟩
    · rintro ⟨-, enough⟩
      omega

/-! ### What a registry has noted -/

/-- A registry for a target after some signals. -/
structure Noted (n : Nat) (ws : List Worker) (r : Readiness) : Prop where
  target : r.target = n
  announced : r.announced = true ↔ Complete n ws
  seen : ¬ Complete n ws → r.seen = distinct ws

theorem noted_new (n : Nat) : Noted n [] (new n) where
  target := rfl
  announced := ⟨nofun, fun complete => absurd complete (not_complete_nil n)⟩
  seen _ := rfl

variable {r : Readiness}

/-- Who has signalled so far, and who signals now. -/
theorem Noted.inOrder_eq (noted : Noted n ws r) (missing : ¬ Complete n ws) (w : Worker) :
    (inOrder fun v => v == w || r.seen.contains v) = distinct (ws ++ [w]) := by
  refine List.filter_congr fun v _ => ?_
  rw [Bool.eq_iff_iff, noted.seen missing]
  simp [mem_distinct, or_comm]

/-- A signal is answered if it meets the target, with everyone who has signalled. -/
theorem Noted.observe (noted : Noted n ws r) (w : Worker) :
    (r.observe w).1 =
        (if ¬ Complete n ws ∧ Complete n (ws ++ [w]) then some (distinct (ws ++ [w])) else none) ∧
      Noted n (ws ++ [w]) (r.observe w).2 := by
  -- Once the target is met nothing is noted any more, so a repeated and a new signal are alike.
  by_cases complete : Complete n ws
  · have announced : r.announced = true := noted.announced.mpr complete
    have ignored : r.observe w = (none, r) := by simp [Readiness.observe, announced]
    rw [ignored, if_neg fun both => both.1 complete]
    exact ⟨rfl, noted.target, iff_of_true announced (complete.append [w]),
      fun missing => absurd (complete.append [w]) missing⟩
  · have waiting : r.announced = false := by
      rw [← Bool.not_eq_true, noted.announced]
      exact complete
    have next := complete_concat_iff (w := w) complete
    by_cases mem : w ∈ ws
    · have missing : ¬ Complete n (ws ++ [w]) := fun met => (next.mp met).1 mem
      have known : r.seen.contains w = true := by simp [noted.seen complete, mem_distinct, mem]
      have ignored : r.observe w = (none, r) := by
        simp [Readiness.observe, -List.contains_eq_mem, known]
      rw [ignored, if_neg fun both => missing both.2]
      refine ⟨rfl, noted.target, ?_, fun _ => ?_⟩
      · simp [waiting, missing]
      · rw [distinct_concat_of_mem mem]
        exact noted.seen complete
    · have fresh : r.seen.contains w = false := by simp [noted.seen complete, mem_distinct, mem]
      simp only [Readiness.observe, waiting, fresh, Bool.or_self, Bool.false_eq_true, if_false,
        noted.inOrder_eq complete, noted.target]
      by_cases short : (distinct (ws ++ [w])).length < n
      · have missing : ¬ Complete n (ws ++ [w]) := fun met => by
          have enough := (next.mp met).2
          omega
        rw [if_pos short, if_neg fun both => missing both.2]
        exact ⟨rfl, rfl, by simp [missing], fun _ => rfl⟩
      · have met : Complete n (ws ++ [w]) := next.mpr ⟨mem, Nat.le_of_not_lt short⟩
        rw [if_neg short, if_pos ⟨complete, met⟩]
        exact ⟨rfl, rfl, by simp [met], fun missing => absurd met missing⟩

/-! ### A sequence of signals -/

/-- The answers of a registry to some signals. -/
def answers (r : Readiness) : List Worker → List (Option (List Worker))
  | [] => []
  | w :: ws => (r.observe w).1 :: answers (r.observe w).2 ws

def after (r : Readiness) (ws : List Worker) : Readiness :=
  ws.foldl (fun r w => (r.observe w).2) r

theorem answers_concat (r : Readiness) (ws : List Worker) (w : Worker) :
    r.answers (ws ++ [w]) = r.answers ws ++ [((r.after ws).observe w).1] := by
  induction ws generalizing r with
  | nil => rfl
  | cons v ws ih => exact congrArg ((r.observe v).1 :: ·) (ih _)

/-- A registry has noted the signals that it has observed. -/
theorem noted_after (n : Nat) (ws : List Worker) : Noted n ws ((new n).after ws) := by
  induction ws using List.reverseRecOn with
  | nil => exact noted_new n
  | append_singleton ws w ih =>
      rw [after, List.foldl_append]
      exact (ih.observe w).2

/-- The answers that signals get: none as long as a target is not met, and one to the signal
that meets it, with everyone who has signalled. -/
inductive Answers (n : Nat) : List Worker → List (Option (List Worker)) → Prop
  | waiting {ws : List Worker} : ¬ Complete n ws → Answers n ws (ws.map fun _ => none)
  | complete {early late : List Worker} {w : Worker} :
      ¬ Complete n early → Complete n (early ++ [w]) →
      Answers n (early ++ w :: late)
        (early.map (fun _ => none) ++ some (distinct (early ++ [w])) :: late.map fun _ => none)

/-- A new registry answers the signal that completes its target, and no other. -/
theorem answers_new (n : Nat) (ws : List Worker) : Answers n ws ((new n).answers ws) := by
  induction ws using List.reverseRecOn with
  | nil => exact .waiting (not_complete_nil n)
  | append_singleton ws w ih =>
      rw [answers_concat, ((noted_after n ws).observe w).1]
      generalize (new n).answers ws = told at ih
      cases ih with
      | waiting missing =>
          by_cases met : Complete n (ws ++ [w])
          · rw [if_pos ⟨missing, met⟩]
            exact .complete missing met
          · rw [if_neg fun both => met both.2]
            simpa using Answers.waiting met
      | @complete early late v missing met =>
          have earlier : Complete n (early ++ v :: late) := by
            simpa using met.append late
          rw [if_neg fun both => both.1 earlier]
          have longer : Answers n (early ++ v :: (late ++ [w])) _ := .complete missing met
          simpa using longer

/-- How a registry of a target answers signals: each worker that has signalled is listed once,
and in the fixed order. -/
structure Joins (n : Nat) (ws : List Worker) : Prop where
  answers : Answers n ws ((new n).answers ws)
  listed : ∀ w, w ∈ distinct ws ↔ w ∈ ws
  nodup : (distinct ws).Nodup
  ordered : (distinct ws).Sublist Worker.all

/-- A new registry joins the signals of its target. -/
theorem joins (n : Nat) (ws : List Worker) : Joins n ws :=
  ⟨answers_new n ws, fun _ => mem_distinct, nodup_distinct ws, distinct_sublist ws⟩

end Readiness

end SessionBroker
