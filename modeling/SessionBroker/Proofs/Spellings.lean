import SessionBroker.Proofs.Lines
import SessionBroker.Proofs.SourceNames

/-!
Spellings of a final name.

The final name of a path is its last step (`Path.fileName?_eq_some_iff_steps`). So the paths of a
final name are the name, alone or in a directory, with any number of slashes and dot segments behind
it, and no others (`Path.fileName?_eq_some_iff`).
-/

namespace SessionBroker

namespace Path

variable {p : Path} {n segment : List UInt8} {s : String}

/-- The paths that spell a name: the name alone or in a directory, and such a path with a slash or a
dot segment behind it. -/
inductive Spells (n : List UInt8) : Path → Prop
  | alone : Spells n ⟨n⟩
  | inside (directory : List UInt8) : Spells n ⟨directory ++ slash :: n⟩
  | trailingSlash {p : Path} : Spells n p → Spells n ⟨p.bytes ++ [slash]⟩
  | trailingDot {p : Path} : Spells n p → Spells n ⟨p.bytes ++ [slash, dot]⟩

/-- Two paths have the same final name, or none. -/
def Namesake (p q : Path) : Prop := p.fileName? = q.fileName?

instance (p q : Path) : Decidable (p.Namesake q) := inferInstanceAs (Decidable (_ = _))

/-! ### The last step -/

/-- The final name is the last step, when that is a name. -/
theorem fileName?_eq_some_iff_steps :
    p.fileName? = some n ↔ p.steps.getLast? = some (.name n) := by
  have last : p.components.getLast? = p.steps.getLast?.or p.start.getLast? := by
    rw [components_eq, List.getLast?_append]
  rw [fileName?, last]
  constructor
  · intro named
    cases steps : p.steps.getLast? with
    | some c =>
        rw [steps, Option.some_or] at named
        cases c with
        | name m =>
            cases named
            rfl
        | _ => cases named
    | none =>
        -- Where a path starts there is no name.
        rw [steps, Option.none_or] at named
        cases first : p.start.getLast? with
        | none =>
            rw [first] at named
            cases named
        | some c =>
            have other := not_name_of_mem_start (List.mem_of_getLast? first)
            rw [first] at named
            cases c with
            | name m => exact absurd rfl (other m)
            | _ => cases named
  · intro steps
    rw [steps]
    rfl

theorem steps_trailingSlash (front : List UInt8) :
    (⟨front ++ [slash]⟩ : Path).steps = (⟨front⟩ : Path).steps := by
  rw [steps_append_slash, steps_empty, List.append_nil]

theorem steps_trailingDot (front : List UInt8) :
    (⟨front ++ [slash, dot]⟩ : Path).steps = (⟨front⟩ : Path).steps := by
  have nothing : (⟨[dot]⟩ : Path).steps = [] := rfl
  rw [steps_append_slash, nothing, List.append_nil]

/-- Every spelling of a name has it as its final name. -/
theorem Spells.fileName? (proper : IsName n) (spells : p.Spells n) : p.fileName? = some n := by
  rw [fileName?_eq_some_iff_steps]
  induction spells with
  | alone =>
      rw [proper.steps]
      rfl
  | inside directory => rw [steps_append_slash, proper.steps, List.getLast?_concat]
  | trailingSlash _ ih => rwa [steps_trailingSlash]
  | trailingDot _ ih => rwa [steps_trailingDot]

/-! ### All spellings -/

/-- A segment that counts as a name is one. -/
theorem isName_of_component? (single : slash ∉ segment)
    (named : component? segment = some (.name n)) : IsName n := by
  obtain rfl := component?_eq_name named
  have counts : component? segment ≠ none := by
    rw [named]
    exact nofun
  rw [Ne, component?_eq_none, not_or] at counts
  refine ⟨counts.1, counts.2, ?_, single⟩
  rintro rfl
  cases named

theorem ofSegments_singleton (segment : List UInt8) : ofSegments [segment] = segment := by
  simp [ofSegments, List.intercalate]

/-- Behind a name only segments that do not count: that spells the name. -/
theorem spells_ofSegments {before back : List (List UInt8)}
    (idle : ∀ s ∈ back, component? s = none) :
    (⟨ofSegments (before ++ n :: back)⟩ : Path).Spells n := by
  -- From the end of `back`: each of its segments is a slash or a dot segment behind the others.
  induction back using List.reverseRecOn with
  | nil =>
      by_cases first : before = []
      · rw [first, List.nil_append, ofSegments_singleton]
        exact .alone
      · rw [ofSegments_append first (List.cons_ne_nil n []), ofSegments_singleton]
        exact .inside _
  | append_singleton back segment ih =>
      have others := ih fun s mem => idle s (List.mem_append_left _ mem)
      have whole : ofSegments (before ++ n :: (back ++ [segment])) =
          ofSegments (before ++ n :: back) ++ slash :: segment := by
        rw [← List.cons_append, ← List.append_assoc,
          ofSegments_append (by simp) (List.cons_ne_nil segment []), ofSegments_singleton]
      rw [whole]
      rcases component?_eq_none.mp (idle segment (by simp)) with rfl | rfl
      · exact .trailingSlash others
      · exact .trailingDot others

/-- **The paths of a final name are its spellings.** -/
theorem fileName?_eq_some_iff : p.fileName? = some n ↔ IsName n ∧ p.Spells n := by
  constructor
  · intro named
    obtain ⟨front, steps⟩ := List.getLast?_eq_some_iff.mp (fileName?_eq_some_iff_steps.mp named)
    obtain ⟨before, segment, back, cut, counts, -, idle⟩ := exists_last_segment steps
    have inside : segment ∈ p.segments := cut ▸ List.mem_append_right _ (.head _)
    have proper := isName_of_component? (not_mem_of_mem_split inside) counts
    obtain rfl := component?_eq_name counts
    have whole : p = ⟨ofSegments (before ++ segment :: back)⟩ := by
      rw [← cut, segments_eq, ofSegments, List.intercalate_splitOn]
    rw [whole]
    exact ⟨proper, spells_ofSegments idle⟩
  · rintro ⟨proper, spells⟩
    exact spells.fileName? proper

/-- A name that is joined to a path is spelled in that directory. -/
theorem spells_join (root : Path) (proper : IsName n) : (root.join ⟨n⟩).Spells n := by
  have relative : (⟨n⟩ : Path).isAbsolute = false := by
    obtain ⟨b, rest, rfl⟩ := List.exists_cons_of_ne_nil proper.1
    have other : b ≠ slash := fun same => proper.2.2.2 (by simp [same])
    simpa [isAbsolute] using other
  rcases join_cases root relative with ⟨-, same⟩ | ⟨front, -, same⟩
  · rw [same]
    exact .alone
  · rw [same]
    exact .inside front

/-! ### Texts -/

theorem ofString_injective : Function.Injective ofString := by
  intro s t same
  have read := congrArg toString? same
  rw [toString?_ofString, toString?_ofString] at read
  exact Option.some.inj read

theorem ofString_append (s t : String) :
    ofString (s ++ t) = ⟨(ofString s).bytes ++ (ofString t).bytes⟩ :=
  congrArg Path.mk (Transport.utf8_append s t)

/-- A text without a slash that is not empty and no dot segment is a name. -/
theorem isName_ofString (some_ : s ≠ "") (one : s ≠ ".") (two : s ≠ "..")
    (single : '/' ∉ s.toList) : IsName (ofString s).bytes := by
  have differs {t : String} (other : s ≠ t) : (ofString s).bytes ≠ (ofString t).bytes :=
    fun same => other (ofString_injective (congrArg Path.mk same))
  refine ⟨differs some_, differs one, differs two, fun mem => ?_⟩
  exact single (Transport.mem_toList_of_mem_utf8 mem (by decide))

/-- A name in a directory is one of its spellings. -/
theorem spells_text (directory s : String) :
    (ofString (directory ++ "/" ++ s)).Spells (ofString s).bytes := by
  rw [String.append_assoc, ofString_append, ofString_append "/" s]
  exact .inside _

/-- Slashes and dot segments may stand behind a text. -/
theorem Spells.text {trail : List String} (spells : (ofString s).Spells n)
    (idle : ∀ t ∈ trail, t = "/" ∨ t = "/.") : (ofString (s ++ String.join trail)).Spells n := by
  induction trail generalizing s with
  | nil => simpa using spells
  | cons t trail ih =>
      obtain ⟨first, others⟩ := List.forall_mem_cons.mp idle
      rw [String.join_cons, ← String.append_assoc]
      refine ih ?_ others
      rw [ofString_append]
      rcases first with rfl | rfl
      · exact .trailingSlash spells
      · exact .trailingDot spells

end Path

end SessionBroker
