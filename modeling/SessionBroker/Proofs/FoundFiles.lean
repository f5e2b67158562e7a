import SessionBroker.Proofs.SourceSearch
import SessionBroker.Proofs.Spellings

/-!
The paths under which a search finds files.

`Files.Node.filesFound` are the files that a search from a root looks at, each under the path that
leads to it. A search that asks for final names only may ask the names of the entries or those whole
paths (`Files.Node.hasFile_eq_any`).
-/

namespace SessionBroker.Files

-- A root is followed, a link below it is not: the way to a file is the root and names of entries.
mutual

/-- The files that a search looks at from a node down; `way` is the path of the node. -/
def Node.found (top : Node) (levels : List Level) (here : Location) (way : Path) :
    Node → List Path
  | .file _ => [way]
  | .link _ => []
  | .folder entries =>
    entriesFound top (Level.ofFolder top here entries :: levels) here way entries

/-- The files that a search looks at from some entries of a folder down. -/
def entriesFound (top : Node) (levels : List Level) (here : Location) (way : Path) :
    List (List UInt8 × Node) → List Path
  | [] => []
  | (entry, n) :: rest =>
    (if isVisited levels entry n.isFolder then
      Node.found top (levels.map (Level.enter entry)) (here ++ [entry]) (way.join ⟨entry⟩) n
    else []) ++ entriesFound top levels here way rest

end

/-- The files that a search from a root looks at. -/
def Node.filesFound (top : Node) (root : Path) : List Path :=
  match top.searchStart? root with
  | none => []
  | some here =>
    match top.at? here with
    | some (.folder entries) =>
      entriesFound top (Level.ofFolder top here entries :: Level.above top here) here root entries
    | some (.file _) => [root]
    | _ => []

/-- The final name of a path is all that counts. -/
def AsksName (wanted : Path → Bool) : Prop :=
  ∀ p q : Path, p.Namesake q → wanted p = wanted q

section Search

variable {top : Node} {wanted : Path → Bool}

mutual

/-- Below an entry a search finds a file by name exactly if one can be reached. -/
theorem any_found (top : Node) (byName : AsksName wanted) (levels : List Level) (here : Location)
    (way : Path) (entry : List UInt8) : ∀ n : Node, Path.IsName entry →
      way.fileName? = some entry → n.all properEntries = true →
      (Node.found top levels here way n).any wanted = Node.reaches top wanted levels here entry n
  | .file content, isName, named, _ => by
      rw [Node.found, Node.reaches, List.any_cons, List.any_nil, Bool.or_false]
      exact byName way ⟨entry⟩ (named.trans (Path.fileName?_of_isName isName).symm)
  | .link target, _, _, _ => by
      rw [Node.found, Node.reaches, List.any_nil]
  | .folder entries, _, _, proper => by
      rw [Node.all, Bool.and_eq_true] at proper
      obtain ⟨-, names⟩ := of_decide_eq_true proper.1
      rw [Node.found, Node.reaches]
      exact any_entriesFound top byName _ here way entries names proper.2

theorem any_entriesFound (top : Node) (byName : AsksName wanted) (levels : List Level)
    (here : Location) (way : Path) : ∀ entries : List (List UInt8 × Node),
      (∀ entry ∈ entries.map (·.1), Path.IsName entry) →
      allEntries properEntries entries = true →
      (entriesFound top levels here way entries).any wanted =
        entriesReach top wanted levels here entries
  | [], _, _ => by
      rw [entriesFound, entriesReach, List.any_nil]
  | (entry, n) :: rest, names, proper => by
      rw [allEntries, Bool.and_eq_true] at proper
      obtain ⟨isName, names⟩ := List.forall_mem_cons.mp names
      have named := (Path.spells_join way isName).fileName? isName
      have first := any_found top byName (levels.map (Level.enter entry)) (here ++ [entry])
        (way.join ⟨entry⟩) entry n isName named proper.1
      have others := any_entriesFound top byName levels here way rest names proper.2
      rw [entriesFound, entriesReach, List.any_append, others]
      cases isVisited levels entry n.isFolder with
      | true => rw [if_pos rfl, first, Bool.true_and]
      | false => rw [if_neg Bool.false_ne_true, List.any_nil, Bool.false_and]

end

/-- What a search asks of the names of entries it may ask of whole paths. -/
theorem Node.hasFile_eq_any (byName : AsksName wanted) (proper : top.all properEntries = true)
    (root : Path) : top.hasFile wanted root = (top.filesFound root).any wanted := by
  rw [Node.hasFile, Node.filesFound]
  cases top.searchStart? root with
  | none => rfl
  | some here =>
      dsimp only
      cases found : top.at? here with
      | none => rfl
      | some n =>
          cases n with
          | file content => simp
          | link target => rfl
          | folder entries =>
              have proper := Node.all_of_at? proper found
              rw [Node.all, Bool.and_eq_true] at proper
              obtain ⟨-, names⟩ := of_decide_eq_true proper.1
              exact (any_entriesFound top byName _ here root entries names proper.2).symm

end Search

end SessionBroker.Files
