import SessionBroker.Proofs.DirectoryRules
import SessionBroker.Watch.Change

/-!
What is always ignored.

The rules about the default directories come last, so they decide about such a directory itself
(`verdict?_of_always`). But a path below it is looked at first, and so are the directories in
between (`Ignore.verdictWithParents?_add`), and a rule of the ignore file can take them back in.
Main statement: `ignored_unless_taken_back`.
-/

namespace SessionBroker

namespace Ignore

/-! ### Levels -/

variable {rules : List Rule} {path : Path} {isDirectory : Bool} {v : Verdict}

/-- Rules further down have the say. -/
theorem verdict?_append (rules more : List Rule) (path : List UInt8) (isDirectory : Bool) :
    verdict? (rules ++ more) path isDirectory =
      (verdict? more path isDirectory).or (verdict? rules path isDirectory) := by
  rw [verdict?, List.reverse_append, List.find?_append, Option.map_or, verdict?, verdict?]

/-- A path is taken back in by a negated rule. -/
theorem exists_negated {path : List UInt8} (kept : verdict? rules path isDirectory = some .kept) :
    ∃ r ∈ rules, r.negated = true ∧ r.applies path isDirectory = true := by
  obtain ⟨r, found, decides⟩ := Option.map_eq_some_iff.mp kept
  have applies : r.applies path isDirectory = true := by simpa using List.find?_some found
  refine ⟨r, List.mem_reverse.mp (List.mem_of_find?_eq_some found), ?_, applies⟩
  cases negated : r.negated with
  | true => rfl
  | false => simp [Rule.verdict, negated] at decides

/-- The levels of a path that decide first are the lowest ones. -/
theorem verdictWithParents?_add (rules : List Rule) (n m : Nat) (path : Path)
    (isDirectory : Bool) :
    verdictWithParents? rules (n + m) path isDirectory =
      (verdictWithParents? rules n path isDirectory).or
        ((path.above n).bind fun q =>
          verdictWithParents? rules m q (isDirectory || decide (0 < n))) := by
  induction n generalizing path isDirectory with
  | zero => simp [verdictWithParents?, Path.above]
  | succ n ih =>
      rw [Nat.succ_add, verdictWithParents?, verdictWithParents?, Path.above]
      cases verdict? rules path.bytes isDirectory with
      | some v => rfl
      | none =>
          cases path.parent? with
          | none => rfl
          | some parent =>
              simp only [Option.bind_some, ih, Bool.true_or, Nat.zero_lt_succ, decide_true,
                Bool.or_true]

/-- The path itself or a directory above it, but fewer than `n` levels, is taken back in, and
nothing below that is decided. -/
def TakenBack (rules : List Rule) (n : Nat) (path : Path) : Prop :=
  ∃ level < n, ∃ q, path.above level = some q ∧
    verdict? rules q.bytes (decide (0 < level)) = some .kept ∧
    ∀ lower < level, ∀ q, path.above lower = some q →
      verdict? rules q.bytes (decide (0 < lower)) = none

/-- What decides is the lowest level that is decided. -/
theorem verdictWithParents?_eq_some (rules : List Rule) (n : Nat) (path : Path)
    (isDirectory : Bool) (v : Verdict) :
    verdictWithParents? rules n path isDirectory = some v ↔
      ∃ level < n, ∃ q, path.above level = some q ∧
        verdict? rules q.bytes (isDirectory || decide (0 < level)) = some v ∧
        ∀ lower < level, ∀ q, path.above lower = some q →
          verdict? rules q.bytes (isDirectory || decide (0 < lower)) = none := by
  induction n generalizing path isDirectory with
  | zero => simp [verdictWithParents?]
  | succ n ih =>
      rw [verdictWithParents?]
      cases own : verdict? rules path.bytes isDirectory with
      | some w =>
          constructor
          · intro same
            cases same
            refine ⟨0, Nat.succ_pos n, path, rfl, by simpa using own, ?_⟩
            exact fun lower less => absurd less (Nat.not_lt_zero lower)
          · rintro ⟨level, -, q, up, decided, below⟩
            cases level with
            | zero =>
                cases up
                simpa [own] using decided
            | succ level =>
                have undecided := below 0 (Nat.succ_pos level) path rfl
                simp [own] at undecided
      | none =>
          constructor
          · intro decides
            obtain ⟨parent, up, decides⟩ := Option.bind_eq_some_iff.mp decides
            obtain ⟨level, less, q, up', decided, below⟩ := (ih parent true).mp decides
            refine ⟨level + 1, Nat.succ_lt_succ less, q, ?_, by simpa using decided, ?_⟩
            · rw [Path.above, up, Option.bind_some, up']
            · intro lower less' q' up''
              cases lower with
              | zero =>
                  cases up''
                  simpa using own
              | succ lower =>
                  rw [Path.above, up, Option.bind_some] at up''
                  simpa using below lower (Nat.lt_of_succ_lt_succ less') q' up''
          · rintro ⟨level, less, q, up, decided, below⟩
            cases level with
            | zero =>
                cases up
                simp [own] at decided
            | succ level =>
                obtain ⟨parent, one, up⟩ := Option.bind_eq_some_iff.mp up
                rw [one, Option.bind_some, ih]
                refine ⟨level, Nat.lt_of_succ_lt_succ less, q, up, by simpa using decided, ?_⟩
                intro lower less' q' up''
                have undecided := below (lower + 1) (Nat.succ_lt_succ less') q'
                  (by rw [Path.above, one, Option.bind_some, up''])
                simpa using undecided

/-- A path is taken back exactly if the rules keep it. -/
theorem takenBack_iff {n : Nat} :
    TakenBack rules n path ↔ verdictWithParents? rules n path false = some .kept := by
  rw [verdictWithParents?_eq_some]
  simp only [Bool.false_or, TakenBack]

/-- Only a negated rule takes anything back in. -/
theorem TakenBack.exists_negated {n : Nat} (back : TakenBack rules n path) :
    ∃ r ∈ rules, r.negated = true := by
  obtain ⟨level, -, q, -, kept, -⟩ := back
  obtain ⟨r, mem, negated, -⟩ := Ignore.exists_negated kept
  exact ⟨r, mem, negated⟩

end Ignore

namespace Watch

open Ignore

/-! ### The rules about the default directories -/

/-- A name of directories that are always ignored. -/
def AlwaysIgnored (name : List UInt8) : Prop :=
  ∃ line ∈ defaultIgnores, (Path.ofString line).bytes = name ++ [Path.slash]

/-- The names of the directories that are always ignored. -/
def alwaysNames : List (List UInt8) :=
  defaultIgnores.map fun line => (Path.ofString line).bytes.dropLast

/-- The default rules are those about the directories of certain names. -/
theorem defaultRules_eq : defaultRules = alwaysNames.map directoryRule := rfl

theorem mem_alwaysNames {name : List UInt8} : name ∈ alwaysNames ↔ AlwaysIgnored name := by
  have marked : ∀ line ∈ defaultIgnores,
      (Path.ofString line).bytes = (Path.ofString line).bytes.dropLast ++ [Path.slash] := by decide
  rw [alwaysNames, List.mem_map]
  constructor
  · rintro ⟨line, mem, rfl⟩
    exact ⟨line, mem, marked line mem⟩
  · rintro ⟨line, mem, same⟩
    exact ⟨line, mem, by rw [same, List.dropLast_concat]⟩

theorem not_negated_of_default {r : Rule} (mem : r ∈ defaultRules) : r.negated = false := by
  rw [defaultRules_eq] at mem
  obtain ⟨name, -, rfl⟩ := List.mem_map.mp mem
  rfl

variable {name : List UInt8}

theorem AlwaysIgnored.rule (always : AlwaysIgnored name) : directoryRule name ∈ defaultRules := by
  rw [defaultRules_eq]
  exact List.mem_map_of_mem (mem_alwaysNames.mpr always)

/-- Rules find the directories of such a name. -/
theorem AlwaysIgnored.found (always : AlwaysIgnored name) :
    name ≠ [] ∧ Path.slash ∉ name ∧ name.getLast? ≠ some Token.dot := by
  have all : ∀ name ∈ alwaysNames,
      name ≠ [] ∧ Path.slash ∉ name ∧ name.getLast? ≠ some Token.dot := by decide
  exact all name (mem_alwaysNames.mpr always)

/-- No rule in front of the default ones counts for such a directory. -/
theorem verdict?_of_always (always : AlwaysIgnored name) (rules : List Rule) {path : Path}
    (ends : path.EndsWith (.name name)) :
    verdict? (rules ++ defaultRules) path.bytes true = some .ignored := by
  have some_ : (defaultRules.reverse.find? (·.applies path.bytes true)).isSome := by
    refine List.find?_isSome.mpr ⟨_, List.mem_reverse.mpr always.rule, ?_⟩
    obtain ⟨some_, single, noDot⟩ := always.found
    exact (applies_directoryRule some_ single).mpr ⟨rfl, noDot, ends⟩
  obtain ⟨r, found⟩ := Option.isSome_iff_exists.mp some_
  have plain := not_negated_of_default (List.mem_reverse.mp (List.mem_of_find?_eq_some found))
  rw [verdict?_append, verdict?, found, Option.map_some, Option.some_or, Rule.verdict, plain]
  rfl

/-! ### Paths seen from the root -/

/-- Bytes without a prefix, if they have it. -/
def unprefixed (start bytes : List UInt8) : List UInt8 :=
  if start.isPrefixOf bytes then bytes.drop start.length else bytes

/-- The bytes of a path without a dot in front of it. -/
def bare (p : Path) : List UInt8 := unprefixed [Path.dot, Path.slash] p.bytes

variable {root rel path : Path} {rest : List UInt8}

/-- Bytes have a prefix or are left as they are. -/
theorem unprefixed_eq_or (start bytes : List UInt8) :
    bytes = start ++ unprefixed start bytes ∨ unprefixed start bytes = bytes := by
  unfold unprefixed
  split
  · rename_i starts
    obtain ⟨rest, rfl⟩ := List.isPrefixOf_iff_prefix.mp starts
    exact .inl (by rw [List.drop_left])
  · exact .inr rfl

/-- A path without a leading `./` leads to the same place. -/
theorem steps_bare (p : Path) : (⟨bare p⟩ : Path).steps = p.steps := by
  rcases unprefixed_eq_or [Path.dot, Path.slash] p.bytes with split | same
  · exact (Path.steps_here (bare p)).symm.trans (congrArg (Path.steps ⟨·⟩) split.symm)
  · rw [bare, same]

theorem steps_unprefixed_slash (bytes : List UInt8) :
    (⟨unprefixed [Path.slash] bytes⟩ : Path).steps = (⟨bytes⟩ : Path).steps := by
  rcases unprefixed_eq_or [Path.slash] bytes with split | same
  · exact (Path.steps_slash _).symm.trans (congrArg (Path.steps ⟨·⟩) split.symm)
  · rw [same]

/-- Only a dot that is followed by the slash is dropped with it. -/
theorem bare_append_slash (front rest : List UInt8) :
    bare ⟨front ++ Path.slash :: rest⟩ =
      if front = [Path.dot] then rest else bare ⟨front⟩ ++ Path.slash :: rest := by
  match front with
  | [] => rfl
  | [b] =>
      by_cases same : b = Path.dot
      · subst same
        rfl
      · simp [bare, unprefixed, same, Ne.symm same]
  -- Whether there is a dot with its slash is said by the first two bytes.
  | b :: c :: front =>
      by_cases starts : Path.dot = b ∧ Path.slash = c
      · obtain ⟨rfl, rfl⟩ := starts
        rfl
      · have none_ (bytes : List UInt8) : bare ⟨b :: c :: bytes⟩ = b :: c :: bytes := by
          rw [bare, unprefixed, if_neg]
          simpa [List.isPrefixOf] using starts
        rw [if_neg (by simp)]
        exact (none_ _).trans (congrArg (· ++ Path.slash :: rest) (none_ front).symm)

theorem relativeTo_eq (root path : Path) :
    relativeTo root path =
      if bare root = [Path.dot] ∨ (bare path).contains Path.slash = false then ⟨bare path⟩
      else if (bare root).isPrefixOf (bare path) then
        ⟨unprefixed [Path.slash] ((bare path).drop (bare root).length)⟩
      else ⟨bare path⟩ := by
  have getD_strip (start bytes : List UInt8) :
      (if start.isPrefixOf bytes then some (bytes.drop start.length) else none).getD bytes =
        unprefixed start bytes := by
    unfold unprefixed
    split <;> rfl
  have fold (p : Path) : unprefixed [Path.dot, Path.slash] p.bytes = bare p := rfl
  simp only [relativeTo, getD_strip, fold, Bool.not_eq_true']
  refine if_congr Iff.rfl rfl ?_
  by_cases front : (bare root).isPrefixOf (bare path) = true
  · rw [if_pos front, if_pos front]
  · rw [if_neg front, if_neg front]

/-- A path that has the bytes of the root in front is seen from behind them. -/
theorem steps_relativeTo (front : bare path = bare root ++ rest)
    (deep : bare root = [] ∨ Path.slash ∈ bare path)
    (here : bare root = [Path.dot] → (⟨bare path⟩ : Path).steps = (⟨rest⟩ : Path).steps) :
    (relativeTo root path).steps = (⟨rest⟩ : Path).steps := by
  rw [relativeTo_eq]
  split
  · rename_i near
    rcases near with dot | flat
    · exact here dot
    · have none_ : bare root = [] := deep.resolve_right fun mem => by
        rw [List.contains_iff_mem.mpr mem] at flat
        cases flat
      rw [front, none_, List.nil_append]
  · rw [front, if_pos (List.isPrefixOf_iff_prefix.mpr (List.prefix_append _ _)), List.drop_left,
      steps_unprefixed_slash]

/-- What is joined to a root keeps its steps as seen from there. -/
theorem steps_relativeTo_join (root : Path) (relative : rel.isAbsolute = false) :
    (relativeTo root (root.join rel)).steps = rel.steps := by
  obtain ⟨bytes⟩ := root
  rcases Path.join_cases ⟨bytes⟩ relative with ⟨rfl, same⟩ | ⟨front, ends, same⟩
  · have seen : (relativeTo ⟨[]⟩ rel).steps = (⟨bare rel⟩ : Path).steps :=
      steps_relativeTo rfl (.inl rfl) fun _ => rfl
    rw [same, seen, steps_bare]
  · have join : bare (Path.join ⟨bytes⟩ rel) = _ := same ▸ bare_append_slash front rel.bytes
    by_cases dot : front = [Path.dot]
    · rw [if_pos dot] at join
      rcases ends with rfl | ⟨rfl, -⟩
      · have root : bare ⟨front ++ [Path.slash]⟩ = [] := by
          rw [bare_append_slash, if_pos dot]
        exact steps_relativeTo (by rw [join, root]; rfl) (.inl root) fun _ => by rw [join]
      · have root : bare ⟨bytes⟩ = [Path.dot] := by
          change bytes = [Path.dot] at dot
          rw [dot]
          rfl
        rw [relativeTo_eq, if_pos (.inl root), join]
    · rw [if_neg dot] at join
      rcases ends with rfl | ⟨rfl, -⟩
      · have root : bare ⟨front ++ [Path.slash]⟩ = bare ⟨front⟩ ++ [Path.slash] := by
          rw [bare_append_slash, if_neg dot]
        refine steps_relativeTo (by rw [join, root, List.append_assoc]; rfl) (.inr ?_) fun one => ?_
        · rw [join]
          simp
        · rw [root] at one
          have last := congrArg List.getLast? one
          rw [List.getLast?_concat] at last
          cases last
      · have seen : (relativeTo ⟨bytes⟩ (Path.join ⟨bytes⟩ rel)).steps =
            (⟨Path.slash :: rel.bytes⟩ : Path).steps := by
          refine steps_relativeTo join (.inr (by rw [join]; simp)) fun one => ?_
          rw [join, one, Path.steps_slash]
          exact Path.steps_here rel.bytes
        rw [seen, Path.steps_slash]

/-! ### Main statement -/

/-- A path below a directory that is always ignored is ignored, unless it is taken back in below
that directory. -/
theorem isIgnored_join {mid below : List Component} (rules : List Rule) (root : Path)
    (always : AlwaysIgnored name) (relative : rel.isAbsolute = false)
    (inside : rel.components = mid ++ .name name :: below) (strictly : below ≠ []) :
    isIgnored (rules ++ defaultRules) root (root.join rel) = true ↔
      ¬ TakenBack (rules ++ defaultRules) below.length (relativeTo root (root.join rel)) := by
  have steps := steps_relativeTo_join root relative
  rw [isIgnored, Path.startsWith_join root relative, Bool.true_and, beq_iff_eq]
  generalize relativeTo root (root.join rel) = seen at steps
  obtain ⟨front, split⟩ := Path.steps_of_components inside
  rw [split] at steps
  obtain ⟨q, up, -, ends⟩ := Path.above_of_steps strictly steps
  have short : below.length < seen.bytes.length + 2 := by
    have most := seen.length_steps_le
    rw [steps, List.length_append, List.length_cons] at most
    omega
  obtain ⟨more, fuel⟩ := Nat.exists_eq_add_of_lt short
  have decided := verdict?_of_always always rules ends
  have there : decide (0 < below.length) = true :=
    decide_eq_true (List.length_pos_iff.mpr strictly)
  -- The levels below the directory are looked at first; the next one is the directory itself.
  rw [fuel, Nat.add_assoc, verdictWithParents?_add, up, Option.bind_some, Bool.false_or, there,
    verdictWithParents?, decided, takenBack_iff]
  cases verdictWithParents? (rules ++ defaultRules) below.length seen false with
  | none => simp
  | some v => cases v <;> simp

/-- The changes of an event are those of its paths, one after the other. -/
theorem changesOf_append (rules : List Rule) (root : Path) (kind : FileEventKind)
    (earlier later : List Path) (path : Path) :
    changesOf rules root ⟨kind, earlier ++ path :: later⟩ =
      changesOf rules root ⟨kind, earlier⟩ ++ (changeAt? rules root kind path).toList ++
        changesOf rules root ⟨kind, later⟩ := by
  simp only [changesOf, List.filterMap_append, List.filterMap_cons, List.append_assoc]
  cases changeAt? rules root kind path <;> rfl

/-- **The default directories are ignored unless the ignore file takes something back in below
them.** An event says nothing about a path strictly below such a directory, unless the path or a
directory between it and the ignored one is matched by a negated rule of the ignore file and
nothing below that is decided; then the path counts like any other. No rule about the ignored
directory itself or a directory above it changes that. -/
theorem ignored_unless_taken_back (ignoreFile : Option (List UInt8)) (kind : FileEventKind)
    (earlier later : List Path) (root : Path) {rel : Path} {mid below : List Component}
    {name : List UInt8} (relative : rel.isAbsolute = false)
    (inside : rel.components = mid ++ .name name :: below)
    (strictly : below ≠ []) (always : AlwaysIgnored name) :
    let rules := rulesFor ignoreFile
    let path := root.join rel
    let back := TakenBack rules below.length (relativeTo root path)
    ∃ own, changesOf rules root ⟨kind, earlier ++ path :: later⟩ =
        changesOf rules root ⟨kind, earlier⟩ ++ own ++ changesOf rules root ⟨kind, later⟩ ∧
      (¬ back → own = []) ∧ (back → own = (changeOf kind path).toList) ∧
      (back → ∃ r ∈ ignoreFile.elim [] rulesOfFile, r.negated = true) := by
  intro rules path back
  have ignored : isIgnored rules root path = true ↔ ¬ back :=
    isIgnored_join _ root always relative inside strictly
  have other : path.same root = false := by
    obtain ⟨front, steps⟩ := Path.steps_of_components inside
    exact Path.same_join root relative (by simp [steps])
  refine ⟨_, changesOf_append rules root kind earlier later path, fun out => ?_, fun taken => ?_,
    fun taken => ?_⟩
  · simp [changeAt?, other, ignored.mpr out]
  · have kept : isIgnored rules root path = false := by
      rw [← Bool.not_eq_true, ignored, not_not]
      exact taken
    simp [changeAt?, other, kept]
  · obtain ⟨r, mem, negated⟩ := taken.exists_negated
    rcases List.mem_append.mp mem with own | default
    · exact ⟨r, own, negated⟩
    · rw [not_negated_of_default default] at negated
      cases negated

/-- A negated rule about the ignored directory itself has no effect below it; another path of the
same event is reported. -/
theorem ignored_unless_taken_back_of_negated_directory :
    let file : List UInt8 := (Path.ofString "!target/\n!Keep.java\n").bytes
    let root := Path.ofString "/p"
    let hidden := Path.ofString "src/target/x/Gen.java"
    let target := (Path.ofString "target").bytes
    let below := [Component.name [0x78], .name (Path.ofString "Gen.java").bytes]
    hidden.isAbsolute = false ∧
      hidden.components = [.name (Path.ofString "src").bytes] ++ .name target :: below ∧
      below ≠ [] ∧ AlwaysIgnored target ∧
      changesOf (rulesFor (some file)) root ⟨.create, [root, root.join hidden]⟩ =
        [.baseRecreated root] := by
  intro file root hidden target below
  have relative : hidden.isAbsolute = false := by decide
  have inside : hidden.components =
      [.name (Path.ofString "src").bytes] ++ .name target :: below := by decide +kernel
  have strictly : below ≠ [] := by simp [below]
  have always : AlwaysIgnored target := ⟨"target/", by decide, by decide⟩
  obtain ⟨own, changes, none_, -⟩ := ignored_unless_taken_back (some file) .create [root] []
    root relative inside strictly always
  have out : ¬ TakenBack (rulesFor (some file)) below.length
      (relativeTo root (root.join hidden)) := by
    rw [takenBack_iff]
    decide +kernel
  refine ⟨relative, inside, strictly, always, changes.trans ?_⟩
  rw [none_ out]
  decide +kernel

/-- A negated rule about a file takes it back in below an ignored directory. -/
theorem default_ignore_undone :
    let file : List UInt8 := (Path.ofString "!Keep.java\n").bytes
    let root := Path.ofString "/p"
    let kept := Path.ofString "target/Keep.java"
    let target := (Path.ofString "target").bytes
    kept.components = [.name target, .name (Path.ofString "Keep.java").bytes] ∧
      AlwaysIgnored target ∧
      changesOf (rulesFor (some file)) root ⟨.create, [root.join kept]⟩ =
        [.added (root.join kept)] := by
  refine ⟨by decide +kernel, ⟨"target/", by decide, by decide⟩, by decide +kernel⟩

end Watch

end SessionBroker
