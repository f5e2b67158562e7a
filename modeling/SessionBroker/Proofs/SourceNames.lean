import SessionBroker.Composition
import SessionBroker.Proofs.Paths

/-!
Which names call for the primary worker.

The extension of a name is what follows its last dot, unless nothing stands in front of that dot
(`Path.nameExtension?_eq_some_iff`). A path counts as a source in another language than Java by its
final name alone (`isNonJavaSource_iff`).
-/

namespace SessionBroker

namespace Path

variable {n stem ext : List UInt8}

/-- A name is cut at its last dot. -/
theorem exists_stem (extension : nameExtension? n = some ext) :
    ∃ stem, n = stem ++ dot :: ext ∧ stem ≠ [] ∧ dot ∉ ext := by
  rw [nameExtension?] at extension
  split at extension
  · cases extension
  · rename_i counts
    obtain rfl := Option.some.inj extension
    push Not at counts
    obtain ⟨-, before⟩ := counts
    set after := n.reverse.takeWhile (· ≠ dot) with after_eq
    have whole : n.reverse = after ++ n.reverse.dropWhile (· ≠ dot) :=
      (List.takeWhile_append_dropWhile).symm
    cases rest : n.reverse.dropWhile (· ≠ dot) with
    | nil =>
        rw [rest, List.append_nil] at whole
        simp [whole] at before
    | cons b front =>
        have stop : b = dot := by
          have first := List.head?_dropWhile_not (fun b => decide (b ≠ dot)) n.reverse
          rw [rest] at first
          simpa using first
        rw [rest, stop] at whole
        refine ⟨front.reverse, ?_, ?_, ?_⟩
        · have back := congrArg List.reverse whole
          simpa using back
        · rintro none_
          rw [List.reverse_eq_nil_iff] at none_
          rw [whole, none_] at before
          simp at before
        · intro mem
          have differs := List.mem_takeWhile_imp (List.mem_reverse.mp mem)
          simp at differs

theorem fileName?_of_isName (proper : IsName n) : (⟨n⟩ : Path).fileName? = some n := by
  rw [fileName?, components_eq, proper.steps, List.getLast?_append]
  rfl

end Path

theorem lowerByte_lowerByte (b : UInt8) :
    Language.lowerByte (Language.lowerByte b) = Language.lowerByte b := by
  have all : ∀ n < 256, Language.lowerByte (Language.lowerByte (.ofNat n)) =
      Language.lowerByte (.ofNat n) := by decide +kernel
  have this := all b.toNat b.toNat_lt
  rwa [UInt8.ofNat_toNat] at this

/-- The case of its letters does not count in an extension. -/
theorem ofExtension_lower (ext : List UInt8) :
    Language.ofExtension (ext.map Language.lowerByte) = Language.ofExtension ext := by
  have same : (ext.map Language.lowerByte).map Language.lowerByte = ext.map Language.lowerByte := by
    rw [List.map_map]
    exact List.map_congr_left fun b _ => lowerByte_lowerByte b
  rw [Language.ofExtension, same, ← Language.ofExtension]

end SessionBroker
