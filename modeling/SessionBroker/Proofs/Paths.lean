import Mathlib.Data.List.Basic
import Mathlib.Data.List.DropRight
import Mathlib.Data.List.Induction
import SessionBroker.Path

/-!
Joined paths and parents.

A path has the segments that its bytes spell, and of them those count that stand for a component
(`Path.steps`). A relative path adds its components to those of the path it is joined to
(`Path.components_join`), and a parent has one component less and ends with one
(`Path.parent?_of_steps`).
-/

namespace SessionBroker

namespace Path

variable {p q root rel : Path} {bytes : List UInt8} {segment : List UInt8}

/-! ### Segments -/

theorem split_eq_splitOn (sep : UInt8) (bytes : List UInt8) :
    split sep bytes = bytes.splitOn sep := by
  induction bytes with
  | nil => rfl
  | cons b rest ih =>
      obtain ⟨piece, pieces, cut⟩ := List.exists_cons_of_ne_nil (List.splitOn_ne_nil sep rest)
      rw [split, List.splitOn_cons_eq_if_modifyHead, ih, cut]
      by_cases same : b = sep <;> simp [same]

theorem segments_eq (p : Path) : p.segments = p.bytes.splitOn slash := split_eq_splitOn _ _

theorem not_mem_of_mem_split {sep : UInt8} (mem : segment ∈ split sep bytes) : sep ∉ segment := by
  induction bytes generalizing segment with
  | nil =>
      rw [List.mem_singleton.mp mem]
      exact List.not_mem_nil
  | cons b rest ih =>
      rw [split] at mem
      split at mem
      · rename_i none_
        rw [split_eq_splitOn] at none_
        exact absurd none_ (List.splitOn_ne_nil _ _)
      · rename_i piece pieces cut
        rw [cut] at ih
        split at mem
        · rcases List.mem_cons.mp mem with rfl | old
          · exact List.not_mem_nil
          · exact ih old
        · rename_i other
          rcases List.mem_cons.mp mem with rfl | old
          · exact List.not_mem_cons_of_ne_of_not_mem (Ne.symm other) (ih (.head _))
          · exact ih (.tail _ old)

/-- Segments are read back from the path that they make. -/
theorem segments_ofSegments {segments : List (List UInt8)} (some_ : segments ≠ [])
    (whole : ∀ s ∈ segments, slash ∉ s) : (⟨ofSegments segments⟩ : Path).segments = segments := by
  rw [segments_eq]
  exact List.splitOn_intercalate slash whole some_

/-! ### Components -/

/-- The components that the segments of a path stand for. -/
def steps (p : Path) : List Component := p.segments.filterMap component?

def start (p : Path) : List Component :=
  if p.isAbsolute then [.root] else if p.segments.head? = some [dot] then [.here] else []

/-- The components of a path are where it starts and its steps. -/
theorem components_eq (p : Path) : p.components = p.start ++ p.steps := rfl

theorem not_name_of_mem_start {c : Component} (mem : c ∈ p.start) (n : List UInt8) :
    c ≠ .name n := by
  unfold start at mem
  split at mem
  · rw [List.mem_singleton.mp mem]
    exact nofun
  · split at mem
    · rw [List.mem_singleton.mp mem]
      exact nofun
    · cases mem

theorem component?_eq_none : component? segment = none ↔ segment = [] ∨ segment = [dot] := by
  unfold component?
  split
  · exact iff_of_true rfl (by assumption)
  · split <;> exact iff_of_false nofun (by assumption)

theorem component?_eq_name {n : List UInt8} (named : component? segment = some (.name n)) :
    segment = n := by
  unfold component? at named
  split at named
  · cases named
  · split at named
    · cases named
    · exact Component.name.inj (Option.some.inj named)

/-- What a file or a folder can be called. -/
def IsName (n : List UInt8) : Prop := n ≠ [] ∧ n ≠ [dot] ∧ n ≠ [dot, dot] ∧ slash ∉ n

instance (n : List UInt8) : Decidable (IsName n) := inferInstanceAs (Decidable (_ ∧ _))

/-- Bytes without slash that do not end with a dot are a name. -/
theorem IsName.of_noDot {n : List UInt8} (some_ : n ≠ []) (noDot : n.getLast? ≠ some dot)
    (single : slash ∉ n) : IsName n := by
  refine ⟨some_, ?_, ?_, single⟩ <;> rintro rfl <;> exact noDot rfl

theorem IsName.component? {n : List UInt8} (proper : IsName n) :
    component? n = some (.name n) := by
  obtain ⟨some_, one, two, -⟩ := proper
  rw [Path.component?, if_neg (not_or.mpr ⟨some_, one⟩), if_neg two]

theorem IsName.segments {n : List UInt8} (proper : IsName n) : (⟨n⟩ : Path).segments = [n] := by
  rw [segments_eq, List.splitOn_eq_singleton proper.2.2.2]

theorem IsName.steps {n : List UInt8} (proper : IsName n) : (⟨n⟩ : Path).steps = [.name n] := by
  rw [Path.steps, proper.segments]
  simp [proper.component?]

/-- A name among the components of a path is one of its steps. -/
theorem steps_of_components {mid below : List Component} {n : List UInt8}
    (inside : p.components = mid ++ .name n :: below) :
    ∃ front, p.steps = front ++ .name n :: below := by
  rw [components_eq] at inside
  rcases List.append_eq_append_iff.mp inside with ⟨front, -, same⟩ | ⟨rest, start, same⟩
  · exact ⟨front, same⟩
  · cases rest with
    | nil => exact ⟨[], same.symm⟩
    | cons c rest =>
        obtain ⟨rfl, -⟩ := List.cons.inj same
        have mem : Component.name n ∈ p.start := start ▸ List.mem_append_right _ (.head _)
        exact absurd rfl (not_name_of_mem_start mem n)

theorem steps_append_slash (front rest : List UInt8) :
    (⟨front ++ slash :: rest⟩ : Path).steps = (⟨front⟩ : Path).steps ++ (⟨rest⟩ : Path).steps := by
  simp only [steps, segments_eq, List.splitOn_append_cons_self, List.filterMap_append]

/-- An empty segment or a dot in front changes nothing about the steps. -/
theorem steps_slash (rest : List UInt8) :
    (⟨slash :: rest⟩ : Path).steps = (⟨rest⟩ : Path).steps :=
  steps_append_slash [] rest

theorem steps_here (rest : List UInt8) :
    (⟨dot :: slash :: rest⟩ : Path).steps = (⟨rest⟩ : Path).steps :=
  steps_append_slash [dot] rest

/-! ### Joined paths -/

/-- A joined path is the relative one, or there is a slash in between, which may already be the
end of the path that is joined to. -/
theorem join_cases (root : Path) (relative : rel.isAbsolute = false) :
    (root.bytes = [] ∧ root.join rel = rel) ∨
      ∃ front, (root.bytes = front ++ [slash] ∨ (root.bytes = front ∧ front ≠ [])) ∧
        root.join rel = ⟨front ++ slash :: rel.bytes⟩ := by
  unfold join
  rw [if_neg (by simp [relative])]
  by_cases empty : root.bytes = []
  · exact .inl ⟨empty, by simp [empty]⟩
  · right
    by_cases ends : root.bytes.getLast? = some slash
    · obtain ⟨front, same⟩ := List.getLast?_eq_some_iff.mp ends
      exact ⟨front, .inl same, by rw [if_pos (.inr ends), same, List.append_assoc]; rfl⟩
    · exact ⟨root.bytes, .inr ⟨rfl, empty⟩, if_neg (not_or.mpr ⟨empty, ends⟩)⟩

theorem steps_empty : (⟨[]⟩ : Path).steps = [] := rfl

/-- A path seen from a root has its own steps behind those of the root. -/
theorem steps_join (root : Path) (relative : rel.isAbsolute = false) :
    (root.join rel).steps = root.steps ++ rel.steps := by
  obtain ⟨bytes⟩ := root
  rcases join_cases ⟨bytes⟩ relative with ⟨rfl, same⟩ | ⟨front, rfl | ⟨rfl, -⟩, same⟩
  · rw [same, steps_empty, List.nil_append]
  · rw [same, steps_append_slash, steps_append_slash, steps_empty, List.append_nil]
  · rw [same, steps_append_slash]

/-- Where a path starts is said by what is in front of its first slash. -/
theorem start_append_slash (front rest : List UInt8) :
    (⟨front ++ slash :: rest⟩ : Path).start = (⟨front ++ [slash]⟩ : Path).start := by
  have some_ := List.splitOn_ne_nil slash front
  simp only [start, isAbsolute, segments_eq, List.splitOn_append_cons_self,
    List.head?_append_of_ne_nil _ some_]
  cases front <;> rfl

/-- A slash at the end does not change where a path starts. -/
theorem start_of_ne_nil {front : List UInt8} (some_ : front ≠ []) :
    (⟨front ++ [slash]⟩ : Path).start = (⟨front⟩ : Path).start := by
  have pieces := List.splitOn_ne_nil slash front
  simp only [start, isAbsolute, segments_eq, List.splitOn_append_cons_self,
    List.head?_append_of_ne_nil _ pieces, List.head?_append_of_ne_nil _ some_]

/-- A path that is not empty keeps its components in front of those that are joined to it. -/
theorem components_join (some_ : root.bytes ≠ []) (relative : rel.isAbsolute = false) :
    (root.join rel).components = root.components ++ rel.steps := by
  have start : (root.join rel).start = root.start := by
    obtain ⟨bytes⟩ := root
    rcases join_cases ⟨bytes⟩ relative with ⟨empty, -⟩ | ⟨front, rfl | ⟨rfl, some_⟩, same⟩
    · exact absurd empty some_
    · rw [same, start_append_slash]
    · rw [same, start_append_slash, start_of_ne_nil some_]
  rw [components_eq, components_eq, start, steps_join root relative, List.append_assoc]

/-- A joined path begins with what it is joined to. -/
theorem startsWith_join (root : Path) (relative : rel.isAbsolute = false) :
    (root.join rel).startsWith root = true := by
  rw [startsWith, List.isPrefixOf_iff_prefix]
  by_cases empty : root.bytes = []
  · have none_ : root.components = [] := by
      obtain ⟨bytes⟩ := root
      subst empty
      rfl
    rw [none_]
    exact List.nil_prefix
  · rw [components_join empty relative]
    exact List.prefix_append _ _

/-- A path below a root is not the root. -/
theorem same_join (root : Path) (relative : rel.isAbsolute = false) (some_ : rel.steps ≠ []) :
    (root.join rel).same root = false := by
  rw [same, beq_eq_false_iff_ne]
  by_cases empty : root.bytes = []
  · obtain ⟨bytes⟩ := root
    subst empty
    intro same
    have nothing : (join ⟨[]⟩ rel).steps = [] := by
      rw [components_eq] at same
      exact (List.append_eq_nil_iff.mp same).2
    rw [steps_join _ relative, steps_empty, List.nil_append] at nothing
    exact some_ nothing
  · rw [components_join empty relative]
    simpa using some_

/-! ### Parents -/

/-- The segments at the end of a path that do not count are dropped. -/
theorem trimSegments_append {front back : List (List UInt8)}
    (counts : component? segment ≠ none) (idle : ∀ s ∈ back, component? s = none) :
    trimSegments (front ++ segment :: back) = front ++ [segment] := by
  have kept : ((front ++ segment :: back).reverse.dropWhile fun s => s = [] ∨ s = [dot]) =
      segment :: front.reverse := by
    have all : ∀ s ∈ back.reverse, decide (s = [] ∨ s = [dot]) = true := fun s mem =>
      decide_eq_true (component?_eq_none.mp (idle s (List.mem_reverse.mp mem)))
    have not_ : ¬ decide (segment = [] ∨ segment = [dot]) = true := fun one =>
      counts (component?_eq_none.mpr (of_decide_eq_true one))
    rw [List.reverse_append, List.reverse_cons, List.append_assoc,
      List.dropWhile_append_of_pos all, List.singleton_append]
    exact List.dropWhile_cons_of_neg not_
  have whole : (segment :: front.reverse).reverse = front ++ [segment] := by simp
  rw [trimSegments, kept, whole]
  exact if_neg fun empty => absurd empty.1 (by simp)

/-- The last segment that counts. -/
theorem exists_last_segment {segments : List (List UInt8)} {front : List Component}
    {c : Component} (steps : segments.filterMap component? = front ++ [c]) :
    ∃ before segment back, segments = before ++ segment :: back ∧ component? segment = some c ∧
      before.filterMap component? = front ∧ ∀ s ∈ back, component? s = none := by
  obtain ⟨before, rest, rfl, earlier, last⟩ := List.filterMap_eq_append_iff.mp steps
  obtain ⟨idle, segment, back, rfl, quiet, counts, later⟩ := List.filterMap_eq_cons_iff.mp last
  refine ⟨before ++ idle, segment, back, by simp, counts, ?_, ?_⟩
  · rw [List.filterMap_append, earlier, List.filterMap_eq_nil_iff.mpr quiet, List.append_nil]
  · exact List.filterMap_eq_nil_iff.mp later

/-- The parent of a path is what is left of its segments without the last one that counts. -/
theorem parent?_of_trimmed {kept front : List (List UInt8)}
    (trimmed : trimSegments p.segments = kept) (some_ : kept ≠ [])
    (trimmed' : trimSegments kept.dropLast = front) (some_' : front ≠ []) :
    p.parent? = some ⟨ofSegments front⟩ := by
  unfold parent?
  rw [trimmed]
  obtain ⟨s, kept, rfl⟩ := List.exists_cons_of_ne_nil some_
  dsimp only
  rw [trimmed']
  obtain ⟨s', front, rfl⟩ := List.exists_cons_of_ne_nil some_'
  rfl

/-- The path ends with a segment that stands for its last component. -/
def EndsWith (p : Path) (c : Component) : Prop :=
  ∃ front segment, p.segments = front ++ [segment] ∧ component? segment = some c

/-- The parent of a path with several steps has one step less and ends with its last one. -/
theorem parent?_of_steps {front : List Component} {c last : Component}
    (steps : p.steps = front ++ [c, last]) :
    ∃ q, p.parent? = some q ∧ q.steps = front ++ [c] ∧ q.EndsWith c := by
  have two : p.segments.filterMap component? = (front ++ [c]) ++ [last] :=
    steps.trans (by simp)
  obtain ⟨before, segment, back, whole, counts, earlier, idle⟩ := exists_last_segment two
  obtain ⟨before', segment', back', rfl, counts', earlier', idle'⟩ := exists_last_segment earlier
  have trimmed : trimSegments p.segments = (before' ++ segment' :: back') ++ [segment] := by
    rw [whole]
    exact trimSegments_append (by simp [counts]) idle
  have trimmed' : trimSegments (before' ++ segment' :: back') = before' ++ [segment'] :=
    trimSegments_append (by simp [counts']) idle'
  have read : (⟨ofSegments (before' ++ [segment'])⟩ : Path).segments = before' ++ [segment'] := by
    refine segments_ofSegments (by simp) fun s mem => ?_
    have inside : s ∈ p.segments := by
      rw [whole]
      simp only [List.mem_append, List.mem_cons, List.not_mem_nil] at mem ⊢
      tauto
    exact not_mem_of_mem_split inside
  refine ⟨⟨ofSegments (before' ++ [segment'])⟩, ?_, ?_, before', segment', read, counts'⟩
  · refine parent?_of_trimmed trimmed (by simp) ?_ (by simp)
    rw [List.dropLast_concat, trimmed']
  · rw [Path.steps, read, List.filterMap_append, earlier']
    simp [counts']

/-- Segments that do not count are trimmed away, but for a leading dot. -/
theorem trimSegments_of_idle {segments : List (List UInt8)}
    (idle : ∀ s ∈ segments, component? s = none) :
    trimSegments segments = [] ∨ trimSegments segments = [[dot]] := by
  have kept : (segments.reverse.dropWhile fun s => s = [] ∨ s = [dot]) = [] :=
    List.dropWhile_eq_nil_iff.mpr fun s mem =>
      decide_eq_true (component?_eq_none.mp (idle s (List.mem_reverse.mp mem)))
  rw [trimSegments, kept]
  by_cases here : segments.head? = some [dot]
  · exact .inr (if_pos ⟨rfl, here⟩)
  · exact .inl (if_neg fun both => here both.2)

/-- The parent of a path of one step has none. -/
theorem steps_parent?_of_idle {kept : List (List UInt8)} (trimmed : trimSegments p.segments = kept)
    (some_ : kept ≠ []) (idle : ∀ s ∈ kept.dropLast, component? s = none)
    (parent : p.parent? = some q) : q.steps = [] := by
  obtain ⟨s, kept, rfl⟩ := List.exists_cons_of_ne_nil some_
  unfold parent? at parent
  rw [trimmed] at parent
  dsimp only at parent
  rcases trimSegments_of_idle idle with nothing | here
  · rw [nothing] at parent
    cases parent
    cases p.isAbsolute <;> rfl
  · rw [here] at parent
    cases parent
    rfl

/-- A parent has all steps but the last one. -/
theorem steps_parent? (parent : p.parent? = some q) : q.steps = p.steps.dropLast := by
  rcases List.eq_nil_or_concat p.steps with none_ | ⟨front, last, steps⟩
  · rw [none_]
    rcases trimSegments_of_idle (List.filterMap_eq_nil_iff.mp none_) with nothing | here
    · rw [parent?, nothing] at parent
      cases parent
    · exact steps_parent?_of_idle here (by simp) (by simp) parent
  rw [List.concat_eq_append] at steps
  rw [steps, List.dropLast_concat]
  rcases List.eq_nil_or_concat front with rfl | ⟨front, c, rfl⟩
  · obtain ⟨before, segment, back, whole, counts, earlier, idle⟩ := exists_last_segment steps
    have trimmed : trimSegments p.segments = before ++ [segment] := by
      rw [whole]
      exact trimSegments_append (by simp [counts]) idle
    refine steps_parent?_of_idle trimmed (by simp) ?_ parent
    rw [List.dropLast_concat]
    exact List.filterMap_eq_nil_iff.mp earlier
  · obtain ⟨q', parent', rest, -⟩ :=
      parent?_of_steps (steps.trans (show _ = front ++ [c, last] by simp))
    rw [parent'] at parent
    cases parent
    rw [rest, List.concat_eq_append]

def above : Nat → Path → Option Path
  | 0, p => some p
  | n + 1, p => p.parent?.bind (above n)

/-- So many levels up as there are steps behind a component, the path ends with it. -/
theorem above_of_steps {front below : List Component} {c : Component} (strictly : below ≠ [])
    (steps : p.steps = front ++ c :: below) :
    ∃ q, above below.length p = some q ∧ q.steps = front ++ [c] ∧ q.EndsWith c := by
  -- From the end of `below`: the parent of a path lacks its last component.
  induction below using List.reverseRecOn generalizing p with
  | nil => exact absurd rfl strictly
  | append_singleton below last ih =>
      rw [List.length_append, List.length_singleton, above]
      rcases List.eq_nil_or_concat below with rfl | ⟨between, c', rfl⟩
      · have two : p.steps = front ++ [c, last] := by simpa using steps
        obtain ⟨q, parent, rest⟩ := parent?_of_steps two
        exact ⟨q, by rw [parent]; rfl, rest⟩
      · have two : p.steps = (front ++ c :: between) ++ [c', last] := by simpa using steps
        obtain ⟨p', parent, one, -⟩ := parent?_of_steps two
        obtain ⟨q, up, rest⟩ := ih (by simp) (p := p') (by simpa using one)
        exact ⟨q, by rw [parent, Option.bind_some, up], rest⟩

/-- So many levels up as many steps are missing at the end. -/
theorem steps_above {level : Nat} (up : p.above level = some q) :
    q.steps = p.steps.take (p.steps.length - level) := by
  induction level generalizing p with
  | zero =>
      cases up
      simp
  | succ level ih =>
      obtain ⟨parent, one, up⟩ := Option.bind_eq_some_iff.mp up
      rw [ih up, steps_parent? one, List.length_dropLast, List.dropLast_eq_take, List.take_take]
      congr 1
      omega

/-- A path that ends with a component has it as its last step. -/
theorem getLast?_steps {c : Component} (ends : p.EndsWith c) : p.steps.getLast? = some c := by
  obtain ⟨front, segment, cut, counts⟩ := ends
  rw [steps, cut, List.filterMap_append]
  simp [counts]

theorem ofSegments_append {front back : List (List UInt8)} (some_ : front ≠ [])
    (more : back ≠ []) :
    ofSegments (front ++ back) = ofSegments front ++ slash :: ofSegments back := by
  induction front with
  | nil => exact absurd rfl some_
  | cons s front ih =>
      cases front with
      | nil =>
          obtain ⟨s', back, rfl⟩ := List.exists_cons_of_ne_nil more
          simp [ofSegments, List.intercalate]
      | cons s' front => simpa [ofSegments, List.intercalate] using ih (by simp)

/-- A path that ends with a name is that name, or it has a slash in front of it. -/
theorem EndsWith.bytes_cases {n : List UInt8} (ends : p.EndsWith (.name n)) :
    p.bytes = n ∨ ∃ front, p.bytes = front ++ slash :: n := by
  obtain ⟨before, segment, cut, named⟩ := ends
  rw [component?_eq_name named, segments_eq] at cut
  have whole : p.bytes = ofSegments (before ++ [n]) := by
    rw [← cut, ofSegments, List.intercalate_splitOn]
  by_cases alone : before = []
  · left
    simpa [alone, ofSegments] using whole
  · rw [ofSegments_append alone (List.cons_ne_nil n [])] at whole
    exact .inr ⟨ofSegments before, by simpa [ofSegments, List.intercalate] using whole⟩

/-- A path ends with a name if its bytes do, behind a slash or alone. -/
theorem endsWith_of_bytes {n : List UInt8} (proper : IsName n)
    (ends : p.bytes = n ∨ ∃ front, p.bytes = front ++ slash :: n) : p.EndsWith (.name n) := by
  rcases ends with rfl | ⟨front, same⟩
  · exact ⟨[], p.bytes, proper.segments, proper.component?⟩
  · refine ⟨front.splitOn slash, n, ?_, proper.component?⟩
    rw [segments_eq, same, List.splitOn_append_cons_self,
      List.splitOn_eq_singleton proper.2.2.2]

/-- A path has no more steps than bytes, but for the one of the bytes behind its last slash. -/
theorem length_steps_le (p : Path) : p.steps.length ≤ p.bytes.length + 1 := by
  have pieces (bytes : List UInt8) : (split slash bytes).length ≤ bytes.length + 1 := by
    induction bytes with
    | nil => exact Nat.le_refl 1
    | cons b rest ih =>
        rw [split]
        split
        · simp
        · rename_i cut
          rw [cut] at ih
          split <;> simp at ih ⊢ <;> omega
  exact Nat.le_trans (List.length_filterMap_le _ _) (pieces p.bytes)

end Path

end SessionBroker
