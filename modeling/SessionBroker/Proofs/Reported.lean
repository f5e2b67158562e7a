import SessionBroker.Proofs.Ignored

/-!
What a watch reports under rules about directories.

Such rules ignore what is strictly below a directory of one of the names, and nothing else
(`Watch.isIgnored_directoryRules`): a path that is looked at is not taken for a directory, so the
directory itself is reported like a file. Main statements: `ignored_directory_reported`, for an
ignore file of plain directory names, and `default_translation_exact`, the changes that an event
means without an ignore file.
-/

namespace SessionBroker

/-- An element is not the last one exactly if something stands behind it. -/
theorem mem_dropLast_iff {α : Type} {a : α} {l : List α} :
    a ∈ l.dropLast ↔ ∃ front back, back ≠ [] ∧ l = front ++ a :: back := by
  constructor
  · intro mem
    obtain ⟨front, between, split⟩ := List.append_of_mem mem
    have some_ : l ≠ [] := by
      rintro rfl
      cases mem
    have whole := List.dropLast_append_getLast some_
    rw [split] at whole
    exact ⟨front, between ++ [l.getLast some_], by simp, by simpa using whole.symm⟩
  · rintro ⟨front, back, some_, rfl⟩
    rw [List.dropLast_append_of_ne_nil (List.cons_ne_nil a back),
      List.dropLast_cons_of_ne_nil some_]
    simp

namespace Path

variable {p q : Path} {above : List Component} {m n : List UInt8}

/-- Names among the components are names among the steps. -/
theorem mem_steps_iff : .name n ∈ p.steps ↔ .name n ∈ p.components := by
  rw [components_eq, List.mem_append]
  constructor
  · exact .inr
  · intro mem
    rcases mem with start | step
    · exact absurd rfl (not_name_of_mem_start start n)
    · exact step

theorem steps_ne_nil (inside : p.components = above ++ [.name n]) : p.steps ≠ [] := by
  intro none_
  have mem : .name n ∈ p.steps := mem_steps_iff.mpr (inside ▸ by simp)
  rw [none_] at mem
  cases mem

/-- What stands above a path, among its steps and among its components. -/
theorem mem_dropLast_steps (inside : p.components = above ++ [.name n]) :
    .name m ∈ p.steps.dropLast ↔ .name m ∈ above := by
  have cut := congrArg List.dropLast inside
  rw [components_eq, List.dropLast_append_of_ne_nil (steps_ne_nil inside), List.dropLast_concat]
    at cut
  rw [← cut, List.mem_append]
  constructor
  · exact .inr
  · intro mem
    rcases mem with start | step
    · exact absurd rfl (not_name_of_mem_start start m)
    · exact step

theorem isAbsolute_join (relative : p.isAbsolute = false) (relative' : q.isAbsolute = false) :
    (p.join q).isAbsolute = false := by
  rcases join_cases p relative' with ⟨-, same⟩ | ⟨front, ends, same⟩
  · rw [same, relative']
  · have first : p.bytes.head? ≠ some slash := by
      simpa [isAbsolute] using relative
    have some_ : front ≠ [] := by
      rintro rfl
      rcases ends with whole | ⟨-, some_⟩
      · exact first (whole ▸ rfl)
      · exact some_ rfl
    have head : front.head? = p.bytes.head? := by
      rcases ends with whole | ⟨whole, -⟩
      · rw [whole, List.head?_append_of_ne_nil _ some_]
      · rw [whole]
    rw [same, isAbsolute, List.head?_append_of_ne_nil _ some_, head]
    exact relative

end Path

namespace Ignore

variable {names : List (List UInt8)} {path : Path} {n level : Nat} {isDirectory : Bool}

/-- A rule about directories never takes a path back in. -/
theorem verdict?_directoryRules (path : List UInt8) (isDirectory : Bool) :
    verdict? (names.map directoryRule) path isDirectory =
      if ∃ name ∈ names, (directoryRule name).applies path isDirectory = true then some .ignored
      else none := by
  rw [verdict?]
  cases found : (names.map directoryRule).reverse.find? (·.applies path isDirectory) with
  | none =>
      rw [if_neg]
      · rfl
      · rintro ⟨name, mem, applies⟩
        have all := List.find?_eq_none.mp found
        exact all _ (List.mem_reverse.mpr (List.mem_map_of_mem mem)) applies
  | some r =>
      have applies : r.applies path isDirectory = true := by simpa using List.find?_some found
      obtain ⟨name, mem, rfl⟩ :=
        List.mem_map.mp (List.mem_reverse.mp (List.mem_of_find?_eq_some found))
      rw [if_pos ⟨name, mem, applies⟩]
      rfl

/-- Something is decided as soon as some level is. -/
theorem verdictWithParents?_isSome {rules : List Rule} {q : Path} {v : Verdict} (low : level < n)
    (up : path.above level = some q)
    (decided : verdict? rules q.bytes (isDirectory || decide (0 < level)) = some v) :
    (verdictWithParents? rules n path isDirectory).isSome := by
  induction level using Nat.strong_induction_on generalizing q v with
  | _ level ih =>
      by_cases first : ∀ lower < level, ∀ q, path.above lower = some q →
          verdict? rules q.bytes (isDirectory || decide (0 < lower)) = none
      · have decides := (verdictWithParents?_eq_some rules n path isDirectory v).mpr
          ⟨level, low, q, up, decided, first⟩
        rw [decides]
        rfl
      · push Not at first
        obtain ⟨lower, less, q', up', decided'⟩ := first
        obtain ⟨w, decided'⟩ := Option.ne_none_iff_exists'.mp decided'
        exact ih lower less (less.trans low) up' decided'

/-- Rules about directories ignore what is strictly below a directory of one of the names, and
nothing else. -/
theorem verdictWithParents?_directoryRules
    (whole : ∀ name ∈ names, name ≠ [] ∧ Path.slash ∉ name) (enough : path.steps.length < n) :
    verdictWithParents? (names.map directoryRule) n path false = some .ignored ↔
      ∃ name ∈ names, name.getLast? ≠ some Token.dot ∧ .name name ∈ path.steps.dropLast := by
  constructor
  · intro ignored
    obtain ⟨level, -, q, up, decided, -⟩ := (verdictWithParents?_eq_some _ _ _ _ _).mp ignored
    rw [verdict?_directoryRules, Bool.false_or] at decided
    split at decided
    · rename_i applied
      obtain ⟨name, mem, applies⟩ := applied
      obtain ⟨some_, single⟩ := whole name mem
      obtain ⟨strictly, noDot, ends⟩ := (applies_directoryRule some_ single).mp applies
      refine ⟨name, mem, noDot, ?_⟩
      have last := List.mem_of_getLast? (Path.getLast?_steps ends)
      rw [Path.steps_above up] at last
      rw [List.dropLast_eq_take]
      have less : path.steps.length - level ≤ path.steps.length - 1 :=
        Nat.sub_le_sub_left (of_decide_eq_true strictly) _
      exact (List.take_sublist_take_left less).mem last
    · cases decided
  · rintro ⟨name, mem, noDot, inside⟩
    obtain ⟨some_, single⟩ := whole name mem
    obtain ⟨front, back, deeper, cut⟩ := mem_dropLast_iff.mp inside
    obtain ⟨q, up, -, ends⟩ := Path.above_of_steps deeper cut
    have low : back.length < n := by
      have total := congrArg List.length cut
      simp at total
      omega
    have strictly : decide (0 < back.length) = true :=
      decide_eq_true (List.length_pos_of_ne_nil deeper)
    have decided : verdict? (names.map directoryRule) q.bytes
        (false || decide (0 < back.length)) = some .ignored := by
      rw [verdict?_directoryRules, Bool.false_or, strictly]
      exact if_pos ⟨name, mem, (applies_directoryRule some_ single).mpr ⟨rfl, noDot, ends⟩⟩
    obtain ⟨v, decides⟩ := Option.isSome_iff_exists.mp (verdictWithParents?_isSome low up decided)
    cases v with
    | ignored => exact decides
    | kept =>
        obtain ⟨_, -, _, -, kept, -⟩ := (verdictWithParents?_eq_some _ _ _ _ _).mp decides
        rw [verdict?_directoryRules] at kept
        split at kept <;> cases kept

end Ignore

namespace Watch

open Ignore

variable {root rel path : Path} {names : List (List UInt8)}

/-- Below a root those paths are ignored that have a directory of one of the names strictly above
them. -/
theorem isIgnored_directoryRules (whole : ∀ name ∈ names, name ≠ [] ∧ Path.slash ∉ name)
    (inside : path.startsWith root = true) :
    isIgnored (names.map directoryRule) root path = true ↔ ∃ name ∈ names,
      name.getLast? ≠ some Token.dot ∧ .name name ∈ (relativeTo root path).steps.dropLast := by
  have enough : (relativeTo root path).steps.length < (relativeTo root path).bytes.length + 2 :=
    Nat.lt_succ_of_le (relativeTo root path).length_steps_le
  rw [isIgnored, inside, Bool.true_and, beq_iff_eq, verdictWithParents?_directoryRules whole enough]

/-! ### An ignore file of directories -/

/-- Directories of the name are ignored: always, or because a line of the ignore file names them. A
name that ends with a dot is not looked up. -/
def IgnoredName (names : List String) (name : List UInt8) : Prop :=
  (AlwaysIgnored name ∨ ∃ n ∈ names, name = (Path.ofString n).bytes) ∧
    name.getLast? ≠ some Token.dot

section DirectoryList

variable {file : List UInt8} {lines : List String}

/-- Listed directories hide what is below them, and nothing else. -/
theorem isIgnored_of_listed (listed : ListsDirectories file lines)
    (relative : rel.isAbsolute = false) :
    isIgnored (rulesFor (some file)) root (root.join rel) = true ↔
      ∃ outer, IgnoredName lines outer ∧ .name outer ∈ rel.steps.dropLast := by
  have all : rulesFor (some file) =
      (lines.map (fun n => (Path.ofString n).bytes) ++ alwaysNames).map directoryRule := by
    rw [rulesFor, Option.elim_some, listed.rules, defaultRules_eq, List.map_append, List.map_map]
    rfl
  have whole : ∀ name ∈ lines.map (fun n => (Path.ofString n).bytes) ++ alwaysNames,
      name ≠ [] ∧ Path.slash ∉ name := by
    intro name mem
    rcases List.mem_append.mp mem with own | default
    · obtain ⟨n, line, rfl⟩ := List.mem_map.mp own
      exact (listed.plain n line).bytes
    · obtain ⟨some_, single, -⟩ := (mem_alwaysNames.mp default).found
      exact ⟨some_, single⟩
  rw [all, isIgnored_directoryRules whole (Path.startsWith_join root relative),
    steps_relativeTo_join root relative]
  constructor
  · rintro ⟨name, mem, noDot, inside⟩
    refine ⟨name, ⟨?_, noDot⟩, inside⟩
    rcases List.mem_append.mp mem with own | default
    · obtain ⟨n, line, rfl⟩ := List.mem_map.mp own
      exact .inr ⟨n, line, rfl⟩
    · exact .inl (mem_alwaysNames.mp default)
  · rintro ⟨name, ⟨ignored, noDot⟩, inside⟩
    refine ⟨name, List.mem_append.mpr ?_, noDot, inside⟩
    rcases ignored with always | ⟨n, mem, rfl⟩
    · exact .inr (mem_alwaysNames.mpr always)
    · exact .inl (List.mem_map_of_mem mem)

/-- **An ignored directory is reported itself.** Under an ignore file of plain directory names, a
folder that is created or removed below the root is reported whatever its name, unless another
ignored directory is strictly above it; what is below an ignored directory is never reported. -/
theorem ignored_directory_reported (listed : ListsDirectories file lines) (kind : FileEventKind)
    (earlier later : List Path) (root : Path) {rel : Path} {above : List Component}
    {name : List UInt8} (relative : rel.isAbsolute = false)
    (inside : rel.components = above ++ [.name name]) :
    let rules := rulesFor (some file)
    let path := root.join rel
    ∃ own, changesOf rules root ⟨kind, earlier ++ path :: later⟩ =
        changesOf rules root ⟨kind, earlier⟩ ++ own ++ changesOf rules root ⟨kind, later⟩ ∧
      ((∃ outer, .name outer ∈ above ∧ IgnoredName lines outer) → own = []) ∧
      ((¬ ∃ outer, .name outer ∈ above ∧ IgnoredName lines outer) →
        (kind = .create → own = [.added path]) ∧ (kind = .remove → own = [.removed path])) ∧
      (IgnoredName lines name → ∀ kind (inner : Path), inner.isAbsolute = false →
        inner.steps ≠ [] → changesOf rules root ⟨kind, [root.join (rel.join inner)]⟩ = []) := by
  intro rules path
  have some_ : rel.steps ≠ [] := Path.steps_ne_nil inside
  have ignored : isIgnored rules root path = true ↔
      ∃ outer, .name outer ∈ above ∧ IgnoredName lines outer := by
    rw [isIgnored_of_listed listed relative]
    simp only [Path.mem_dropLast_steps inside, and_comm]
  have other : path.same root = false := Path.same_join root relative some_
  refine ⟨_, changesOf_append rules root kind earlier later path, fun hidden => ?_, fun open_ => ?_,
    fun own kind inner relative' deeper => ?_⟩
  · simp [changeAt?, other, ignored.mpr hidden]
  · have kept : isIgnored rules root path = false := by
      rw [← Bool.not_eq_true, ignored]
      exact open_
    constructor <;> rintro rfl <;> simp [changeAt?, other, kept, changeOf]
  · have joined := Path.isAbsolute_join relative relative'
    have steps := Path.steps_join rel relative'
    have below : isIgnored rules root (root.join (rel.join inner)) = true := by
      rw [isIgnored_of_listed listed joined, steps, List.dropLast_append_of_ne_nil deeper]
      have last : .name name ∈ rel.steps := (Path.mem_steps_iff).mpr (inside ▸ by simp)
      exact ⟨name, own, List.mem_append_left _ last⟩
    have other : (root.join (rel.join inner)).same root = false :=
      Path.same_join root joined (by simp [steps, deeper])
    simp [changesOf, changeAt?, other, below]

/-- A folder of an ignored name is reported, a file in it is not. -/
theorem ignored_directory_reported_of_generated :
    let file : List UInt8 := (Path.ofString "generated/\n").bytes
    let root := Path.ofString "/p"
    let folder := Path.ofString "src/generated"
    let stub := Path.ofString "Stub.java"
    let src := (Path.ofString "src").bytes
    let generated := (Path.ofString "generated").bytes
    ListsDirectories file ["generated"] ∧ folder.isAbsolute = false ∧
      folder.components = [.name src] ++ [.name generated] ∧
      changesOf (rulesFor (some file)) root ⟨.create, [root.join folder]⟩ =
        [.added (root.join folder)] ∧
      changesOf (rulesFor (some file)) root ⟨.create, [root.join (folder.join stub)]⟩ = [] := by
  intro file root folder stub src generated
  have listed : ListsDirectories file ["generated"] := by
    exact ⟨List.forall_mem_singleton.mpr (by decide +kernel), by decide +kernel⟩
  have relative : folder.isAbsolute = false := by decide
  have inside : folder.components = [.name src] ++ [.name generated] := by decide +kernel
  obtain ⟨own, changes, -, reported, below⟩ :=
    ignored_directory_reported listed .create [] [] root relative inside
  have ignored : IgnoredName ["generated"] generated :=
    ⟨.inr ⟨"generated", .head _, rfl⟩, by decide⟩
  have open_ : ¬ ∃ outer, .name outer ∈ [Component.name src] ∧ IgnoredName ["generated"] outer := by
    rintro ⟨outer, mem, named, -⟩
    cases List.mem_singleton.mp mem
    rcases named with always | ⟨n, line, same⟩
    · exact absurd (mem_alwaysNames.mpr always) (by decide)
    · cases List.mem_singleton.mp line
      exact absurd same (by decide)
  refine ⟨listed, relative, inside, changes.trans ?_, below ignored .create stub ?_ ?_⟩
  · rw [(reported open_).1 rfl]
    rfl
  · decide
  · decide +kernel

/-- A build directory that is made anew is reported, though it is ignored. -/
theorem recreated_directory_reported :
    let root := Path.ofString "/p"
    let target := Path.ofString "target"
    AlwaysIgnored target.bytes ∧
      changesOf (rulesFor none) root ⟨.create, [root.join target]⟩ =
        [.added (root.join target)] := by
  refine ⟨⟨"target/", by decide, by decide⟩, by decide +kernel⟩

end DirectoryList

/-! ### No ignore file -/

/-- A path that is made of names. -/
structure NamePath where
  absolute : Bool
  names : List (List UInt8)
  normal : ∀ n ∈ names, Path.IsName n

namespace NamePath

def toPath (p : NamePath) : Path :=
  ⟨(if p.absolute then [Path.slash] else []) ++ Path.ofSegments p.names⟩

variable {p root : NamePath}

theorem steps_ofSegments (p : NamePath) :
    (⟨Path.ofSegments p.names⟩ : Path).steps = p.names.map .name := by
  by_cases none_ : p.names = []
  · rw [none_]
    rfl
  · have whole : ∀ n ∈ p.names, Path.slash ∉ n := fun n mem => (p.normal n mem).2.2.2
    rw [Path.steps, Path.segments_ofSegments none_ whole, ← List.filterMap_eq_map]
    exact List.filterMap_congr fun n mem => (p.normal n mem).component?

/-- A path of names has these names as its steps. -/
theorem steps_toPath (p : NamePath) : p.toPath.steps = p.names.map .name := by
  rw [toPath]
  cases p.absolute with
  | true => exact (Path.steps_slash _).trans p.steps_ofSegments
  | false => exact p.steps_ofSegments

theorem start_toPath (p : NamePath) : p.toPath.start = if p.absolute then [.root] else [] := by
  obtain ⟨absolute, names, normal⟩ := p
  cases absolute with
  | true => rfl
  | false =>
      cases names with
      | nil => rfl
      | cons n names =>
          obtain ⟨some_, one, -, single⟩ := normal n (.head _)
          have whole : ∀ m ∈ n :: names, Path.slash ∉ m := fun m mem => (normal m mem).2.2.2
          have segments := Path.segments_ofSegments (List.cons_ne_nil n names) whole
          have first : (Path.ofSegments (n :: names)).head? ≠ some Path.slash := by
            obtain ⟨b, rest, rfl⟩ := List.exists_cons_of_ne_nil some_
            have other : b ≠ Path.slash := fun same => single (by simp [same])
            cases names <;> simpa [Path.ofSegments, List.intercalate] using other
          have relative : (⟨Path.ofSegments (n :: names)⟩ : Path).isAbsolute = false := by
            simpa [Path.isAbsolute] using first
          change (⟨Path.ofSegments (n :: names)⟩ : Path).start = []
          rw [Path.start, relative, segments]
          simp [one]

/-- The components of a path of names are its names, behind the root if it is absolute. -/
theorem components_toPath (p : NamePath) :
    p.toPath.components = (if p.absolute then [.root] else []) ++ p.names.map .name := by
  rw [Path.components_eq, start_toPath, steps_toPath]

theorem exists_names_of_append {names : List (List UInt8)} {front : List (List UInt8)}
    {rest : List Component} (same : names.map Component.name = front.map .name ++ rest) :
    ∃ below, names = front ++ below ∧ rest = below.map .name := by
  obtain ⟨first, below, rfl, first_, rfl⟩ := List.map_eq_append_iff.mp same
  have injective : Function.Injective Component.name := fun _ _ same => Component.name.inj same
  exact ⟨below, by rw [List.map_injective_iff.mpr injective first_], rfl⟩

/-- What the components of a root leave of those of a path. The empty path is in front of all
others, those that start at the top included. -/
theorem components_cases {rest : List Component}
    (split : p.toPath.components = root.toPath.components ++ rest) :
    (p.absolute = root.absolute ∧
      ∃ below, p.names = root.names ++ below ∧ rest = below.map .name) ∨
    (p.absolute = true ∧ root.absolute = false ∧ root.names = [] ∧
      rest = .root :: p.names.map .name) := by
  rw [components_toPath, components_toPath] at split
  cases top : p.absolute <;> cases top' : root.absolute <;>
    simp only [top, top', Bool.false_eq_true, if_true, if_false, List.nil_append,
      List.cons_append] at split
  · exact .inl ⟨rfl, exists_names_of_append split⟩
  · cases names : p.names <;> simp [names] at split
  · cases names : root.names with
    | nil =>
        rw [names] at split
        exact .inr ⟨rfl, rfl, rfl, split.symm⟩
    | cons n more => simp [names] at split
  · exact .inl ⟨rfl, exists_names_of_append (List.cons.inj split).2⟩

/-- A path made of names is told by its components. -/
theorem same_toPath : p.toPath.same root.toPath = true ↔ p = root := by
  rw [Path.same, beq_iff_eq]
  constructor
  · intro same
    rcases components_cases (same.trans (List.append_nil _).symm) with
      ⟨top, below, names, none_⟩ | ⟨-, -, -, none_⟩
    · cases below with
      | nil =>
          obtain ⟨absolute, names, normal⟩ := p
          obtain ⟨absolute', names', normal'⟩ := root
          simp at top names
          simp [top, names]
      | cons n below => cases none_
    · cases none_
  · rintro rfl
    rfl

/-- Nothing is dropped in front of such a path. -/
theorem bare_toPath (p : NamePath) : bare p.toPath = p.toPath.bytes := by
  refine if_neg fun starts => ?_
  obtain ⟨rest, same⟩ := List.isPrefixOf_iff_prefix.mp starts
  have whole : p.toPath = ⟨[Path.dot] ++ Path.slash :: rest⟩ := congrArg Path.mk same.symm
  have here : p.toPath.start = [.here] := by
    rw [whole, Path.start_append_slash]
    rfl
  rw [start_toPath] at here
  split at here <;> cases here

/-- A path is seen from a root as the names that it has below it. -/
theorem steps_relativeTo_toPath {below : List (List UInt8)} (names : p.names = root.names ++ below)
    (top : p.absolute = root.absolute ∨ (root.absolute = false ∧ root.names = []))
    (deeper : root.names = [] ∨ below ≠ []) :
    (relativeTo root.toPath p.toPath).steps = below.map .name := by
  by_cases atTop : root.names = []
  · have all : p.names = below := by rw [names, atTop, List.nil_append]
    cases start : root.absolute with
    | false =>
        have empty : bare root.toPath = [] := by
          rw [bare_toPath, toPath, start, atTop]
          rfl
        have whole : bare p.toPath = bare root.toPath ++ p.toPath.bytes := by
          rw [empty, bare_toPath, List.nil_append]
        rw [steps_relativeTo whole (.inl empty) (fun one => by rw [empty] at one; cases one)]
        exact all ▸ p.steps_toPath
    | true =>
        have absolute : p.absolute = true := by simpa [start] using top
        have slash : bare root.toPath = [Path.slash] := by
          rw [bare_toPath, toPath, start, atTop]
          rfl
        have whole : bare p.toPath = [Path.slash] ++ Path.ofSegments p.names := by
          rw [bare_toPath, toPath, absolute]
          rfl
        rw [steps_relativeTo (whole.trans (congrArg (· ++ _) slash.symm))
          (.inr (by simp [whole])) (fun one => by rw [slash] at one; cases one)]
        exact all ▸ p.steps_ofSegments
  · have some_ : below ≠ [] := deeper.resolve_left atTop
    have absolute : p.absolute = root.absolute := top.resolve_right fun both => atTop both.2
    have whole : bare p.toPath = bare root.toPath ++ Path.slash :: Path.ofSegments below := by
      rw [bare_toPath, bare_toPath, toPath, toPath, names, Path.ofSegments_append atTop some_,
        absolute, List.append_assoc]
    have normal : ∀ n ∈ below, Path.IsName n :=
      fun n mem => p.normal n (names ▸ List.mem_append_right _ mem)
    rw [steps_relativeTo whole (.inr (by simp [whole])) fun one => ?_]
    · exact (Path.steps_slash _).trans (steps_ofSegments ⟨false, below, normal⟩)
    · have steps := root.steps_toPath
      rw [bare_toPath] at one
      have here : root.toPath = ⟨[Path.dot]⟩ := congrArg Path.mk one
      rw [here] at steps
      exact absurd (List.map_eq_nil_iff.mp steps.symm) atTop

/-- A directory that is always ignored is strictly above the path and below the root. -/
def Hidden (root p : NamePath) : Prop :=
  ∃ between name below, AlwaysIgnored name ∧ below ≠ [] ∧
    p.toPath.components = root.toPath.components ++ between ++ .name name :: below

/-- Below a root exactly that is ignored which is inside an ignored directory. -/
theorem isIgnored_of_inside {rest : List Component}
    (split : p.toPath.components = root.toPath.components ++ rest) (some_ : rest ≠ []) :
    isIgnored defaultRules root.toPath p.toPath = true ↔
      ∃ name, AlwaysIgnored name ∧ .name name ∈ rest.dropLast := by
  have inside : p.toPath.startsWith root.toPath = true :=
    List.isPrefixOf_iff_prefix.mpr ⟨rest, split.symm⟩
  have whole : ∀ name ∈ alwaysNames, name ≠ [] ∧ Path.slash ∉ name := fun name mem =>
    ⟨(mem_alwaysNames.mp mem).found.1, (mem_alwaysNames.mp mem).found.2.1⟩
  have seen : ∀ name, .name name ∈ (relativeTo root.toPath p.toPath).steps.dropLast ↔
      .name name ∈ rest.dropLast := by
    intro name
    rcases components_cases split with ⟨top, below, names, rfl⟩ | ⟨-, top, names, rfl⟩
    · have deeper : below ≠ [] := by
        rintro rfl
        exact some_ rfl
      rw [steps_relativeTo_toPath names (.inl top) (.inr deeper)]
    · have all : p.names = root.names ++ p.names := by rw [names, List.nil_append]
      rw [steps_relativeTo_toPath all (.inr ⟨top, names⟩) (.inl names)]
      cases p.names.map Component.name <;> simp
  rw [defaultRules_eq, isIgnored_directoryRules whole inside]
  simp only [seen]
  constructor
  · rintro ⟨name, mem, -, above⟩
    exact ⟨name, mem_alwaysNames.mp mem, above⟩
  · rintro ⟨name, always, above⟩
    exact ⟨name, mem_alwaysNames.mpr always, always.found.2.2, above⟩

/-- What the rules that there always are ignore, among paths made of names. -/
theorem isIgnored_iff (other : p ≠ root) :
    isIgnored defaultRules root.toPath p.toPath = true ↔ Hidden root p := by
  by_cases inside : p.toPath.startsWith root.toPath = true
  · obtain ⟨rest, split⟩ := List.isPrefixOf_iff_prefix.mp inside
    have some_ : rest ≠ [] := by
      rintro rfl
      exact other (same_toPath.mp (beq_iff_eq.mpr (split.symm.trans (List.append_nil _))))
    rw [isIgnored_of_inside split.symm some_, Hidden]
    simp only [mem_dropLast_iff, ← split, List.append_assoc, List.append_cancel_left_eq]
    constructor
    · rintro ⟨name, always, between, below, deeper, same⟩
      exact ⟨between, name, below, always, deeper, same⟩
    · rintro ⟨between, name, below, always, deeper, same⟩
      exact ⟨name, always, between, below, deeper, same⟩
  · constructor
    · intro ignored
      simp [isIgnored, inside] at ignored
    · rintro ⟨between, name, below, -, -, same⟩
      rw [List.append_assoc] at same
      exact absurd (List.isPrefixOf_iff_prefix.mpr ⟨_, same.symm⟩) inside

end NamePath

/-- **Without an ignore file, what an event means follows from the names of its paths.** Each path
tells at most one change, in the order of the paths. -/
theorem default_translation_exact (kind : FileEventKind) (root : NamePath)
    (paths : List NamePath) :
    ∃ told : NamePath → Option Change,
      changesOf (rulesFor none) root.toPath ⟨kind, paths.map NamePath.toPath⟩ =
        paths.filterMap told ∧
      (kind = .create ∨ kind = .remove → told root = some (.baseRecreated root.toPath)) ∧
      (kind ≠ .create ∧ kind ≠ .remove → told root = none) ∧
      ∀ path, path ≠ root →
        (NamePath.Hidden root path → told path = none) ∧
        (¬ NamePath.Hidden root path →
          (kind = .create ∨ kind = .renameTo → told path = some (.added path.toPath)) ∧
          (kind = .remove ∨ kind = .renameFrom → told path = some (.removed path.toPath)) ∧
          (kind = .modify → told path = some (.changed path.toPath)) ∧
          (kind = .access ∨ kind = .unspecified ∨ kind = .other → told path = none)) := by
  refine ⟨fun path => changeAt? defaultRules root.toPath kind path.toPath, ?_, ?_, ?_, ?_⟩
  · exact List.filterMap_map
  · rintro (rfl | rfl) <;> simp [changeAt?, NamePath.same_toPath.mpr rfl]
  · rintro ⟨create, remove⟩
    simp [changeAt?, NamePath.same_toPath.mpr rfl, create, remove]
  · intro path other
    have apart : path.toPath.same root.toPath = false := by
      rw [← Bool.not_eq_true, NamePath.same_toPath]
      exact other
    constructor
    · intro hidden
      simp [changeAt?, apart, (NamePath.isIgnored_iff other).mpr hidden]
    · intro open_
      have kept : isIgnored defaultRules root.toPath path.toPath = false := by
        rw [← Bool.not_eq_true, NamePath.isIgnored_iff other]
        exact open_
      simp only [changeAt?, apart, kept, Bool.false_eq_true, if_false]
      refine ⟨?_, ?_, ?_, ?_⟩
      · rintro (rfl | rfl) <;> rfl
      · rintro (rfl | rfl) <;> rfl
      · rintro rfl
        rfl
      · rintro (rfl | rfl | rfl) <;> rfl

end Watch

end SessionBroker
