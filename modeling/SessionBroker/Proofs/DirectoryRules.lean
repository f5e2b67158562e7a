import SessionBroker.Proofs.Lines
import SessionBroker.Proofs.Paths
import SessionBroker.Ignore.Rules

/-!
Rules about directories of a name.

`directoryRule name` applies to a directory exactly when its path ends with the name
(`applies_directoryRule`). A line that is a plain name with a slash behind it is read as that rule
(`PlainName.parse?`), so an ignore file of such lines is a list of them
(`ListsDirectories.rules`).
-/

namespace SessionBroker

namespace Ignore

/-! ### What such a rule applies to -/

/-- A token without branches is left as it is from each path. -/
theorem leaveAll_cons {token : Token} (plain : ∀ branches, token ≠ .alternatives branches)
    (tokens : List Token) (paths : List (List UInt8)) :
    leaveAll (token :: tokens) paths =
      leaveAll tokens (paths.flatMap token.leave).eraseDups := by
  rw [leaveAll]
  exact plain

/-- What is left of a path that begins with some bytes. -/
theorem mem_leaveAll_bytes {bytes rest : List UInt8} {paths : List (List UInt8)} :
    rest ∈ leaveAll (bytes.map .byte) paths ↔ bytes ++ rest ∈ paths := by
  induction bytes generalizing paths with
  | nil => simp [leaveAll]
  | cons b bytes ih =>
      have one (path : List UInt8) :
          bytes ++ rest ∈ (Token.byte b).leave path ↔ path = b :: (bytes ++ rest) := by
        cases path with
        | nil => simp [Token.leave]
        | cons c path =>
            rw [Token.leave]
            split <;> simp_all [eq_comm]
      rw [List.map_cons, leaveAll_cons, ih, List.mem_eraseDups, List.mem_flatMap]
      · simp only [one, exists_eq_right, List.cons_append]
      · intro branches same
        cases same

/-- What is behind a slash of a path. -/
theorem mem_afterSlashes {path rest : List UInt8} :
    rest ∈ Token.afterSlashes path ↔ ∃ front, path = front ++ Token.slash :: rest := by
  induction path with
  | nil => simp [Token.afterSlashes]
  | cons b path ih =>
      have split : (∃ front, b :: path = front ++ Token.slash :: rest) ↔
          (b = Token.slash ∧ path = rest) ∨ ∃ front, path = front ++ Token.slash :: rest := by
        constructor
        · rintro ⟨_ | ⟨c, front⟩, same⟩
          · exact .inl (List.cons.inj same)
          · exact .inr ⟨front, (List.cons.inj same).2⟩
        · rintro (⟨rfl, rfl⟩ | ⟨front, rfl⟩)
          · exact ⟨[], rfl⟩
          · exact ⟨b :: front, rfl⟩
      rw [split, ← ih, Token.afterSlashes]
      by_cases here : b = Token.slash
      · simp [here, eq_comm]
      · simp [here]

def directoryRule (name : List UInt8) : Rule := ⟨⟨.leading :: name.map .byte⟩, false, true⟩

variable {name : List UInt8}

/-- The pattern of a directory rule ends with a dot exactly if its name does. -/
theorem endsWithDot_directoryRule (some_ : name ≠ []) :
    (directoryRule name).glob.endsWithDot = true ↔ name.getLast? = some Token.dot := by
  obtain ⟨front, b, rfl⟩ := (List.eq_nil_or_concat name).resolve_left some_
  have last : (directoryRule (front.concat b)).glob.tokens.getLast? = some (.byte b) := by
    rw [List.concat_eq_append, directoryRule, List.map_append, ← List.cons_append]
    exact List.getLast?_concat
  rw [Glob.endsWithDot, last]
  simp

theorem looksUpName_directoryRule (single : Token.slash ∉ name) :
    (directoryRule name).glob.looksUpName = true := by
  have none_ : (name.map Token.byte).any Glob.isSlash = false := by
    rw [List.any_map, List.any_eq_false]
    intro b mem
    have other : b ≠ Token.slash := fun same => single (same ▸ mem)
    simpa [Glob.isSlash] using other
  change (!((name.map Token.byte).all Glob.isByte && (name.map Token.byte).any Glob.isSlash)) = true
  rw [none_, Bool.and_false, Bool.not_false]

/-- The pattern of a directory rule matches paths that end with its name. -/
theorem matchTokens_directoryRule {path : List UInt8} :
    matchTokens (directoryRule name).glob.tokens path = true ↔
      path = name ∨ ∃ front, path = front ++ Token.slash :: name := by
  rw [matchTokens, List.contains_iff_mem, directoryRule, leaveAll_cons, mem_leaveAll_bytes,
    List.append_nil, List.mem_eraseDups, List.flatMap_singleton, Token.leave, List.mem_cons,
    mem_afterSlashes, eq_comm]
  intro branches same
  cases same

/-- The rule about the directories of a name matches what is that name or has it behind a slash.
A path that ends with a dot is not looked up by its name. -/
theorem accepts_directoryRule (some_ : name ≠ []) (single : Token.slash ∉ name)
    {path : List UInt8} :
    (directoryRule name).glob.accepts path = true ↔
      name.getLast? ≠ some Token.dot ∧
        (path = name ∨ ∃ front, path = front ++ Token.slash :: name) := by
  have unfold_ : (directoryRule name).glob.accepts path =
      (!(path.getLast? == some Token.dot && (directoryRule name).glob.endsWithDot &&
        (directoryRule name).glob.looksUpName) &&
          matchTokens (directoryRule name).glob.tokens path) := by
    unfold Glob.accepts
    split
    · rename_i alone
      have none_ : name.map Token.byte = [] := (List.cons.inj alone).2
      exact absurd (List.map_eq_nil_iff.mp none_) some_
    · rfl
  have last : (path = name ∨ ∃ front, path = front ++ Token.slash :: name) →
      path.getLast? = name.getLast? := by
    rintro (rfl | ⟨front, rfl⟩)
    · rfl
    · rw [List.getLast?_append_of_ne_nil _ (by simp), List.getLast?_cons_of_ne_nil some_]
  rw [unfold_, looksUpName_directoryRule single, Bool.and_true, Bool.and_eq_true,
    matchTokens_directoryRule, and_congr_left_iff]
  intro found
  rw [last found, Bool.not_eq_true', ← Bool.not_eq_true, Bool.and_eq_true, beq_iff_eq,
    endsWithDot_directoryRule some_, and_self, ne_eq]

/-- The rule about the directories of a name applies to those that end with it. -/
theorem applies_directoryRule (some_ : name ≠ []) (single : Path.slash ∉ name) {path : Path}
    {isDirectory : Bool} : (directoryRule name).applies path.bytes isDirectory = true ↔
      isDirectory = true ∧ name.getLast? ≠ some Token.dot ∧ path.EndsWith (.name name) := by
  have only : (directoryRule name).directoriesOnly = true := rfl
  rw [Rule.applies, only, Bool.not_true, Bool.or_false, Bool.and_eq_true,
    accepts_directoryRule some_ single]
  refine and_congr_right fun _ => and_congr_right fun noDot => ?_
  constructor
  · intro ends
    exact Path.endsWith_of_bytes (.of_noDot some_ noDot single) ends
  · intro ends
    exact ends.bytes_cases

/-! ### Plain lines -/

/-- A character that stands for itself wherever it is in a pattern. -/
def isPlain (c : Char) : Bool := c ∉ ['/', '\\', '*', '?', '[', '\x7b', '\x7d']

/-- A name that a line can hold as it is: it has no character with a meaning of its own and does
not make the line a comment or a negation. -/
structure PlainName (name : String) : Prop where
  some_ : name.toList ≠ []
  plain : ∀ c ∈ name.toList, isPlain c = true
  start : ∀ c ∈ name.toList.head?, c ∉ ['!', '#', '\ufeff']

theorem plainName_iff (name : String) : PlainName name ↔ name.toList ≠ [] ∧
    name.toList.all isPlain = true ∧
      (name.toList.head?.all fun c => c ∉ ['!', '#', '\ufeff']) = true := by
  constructor
  · intro h
    refine ⟨h.some_, List.all_eq_true.mpr h.plain, ?_⟩
    cases first : name.toList.head? with
    | none => rfl
    | some c => simpa using h.start c first
  · rintro ⟨some_, plain, start⟩
    refine ⟨some_, List.all_eq_true.mp plain, fun c first => ?_⟩
    rw [Option.mem_def.mp first] at start
    simpa using start

instance (name : String) : Decidable (PlainName name) := decidable_of_iff' _ (plainName_iff name)

/-- A character has the bytes of its UTF-8 encoding. -/
theorem charBytes_eq (c : Char) : charBytes c = String.utf8EncodeChar c := by
  have bytes := Transport.utf8_eq (String.ofList [c])
  rw [String.toList_ofList, List.flatMap_singleton] at bytes
  exact bytes

/-- Plain characters are read as their bytes. -/
theorem scanGlob_plain {chars : List Char} (plain : ∀ c ∈ chars, isPlain c = true) {fuel : Nat}
    (enough : chars.length < fuel) {s : GlobState} (outer : s.outer = []) :
    scanGlob fuel s chars =
      some (s.current.reverse ++ (chars.flatMap String.utf8EncodeChar).map .byte) := by
  induction chars generalizing fuel s with
  | nil =>
      obtain ⟨fuel, rfl⟩ := Nat.exists_eq_add_of_lt enough
      simp [scanGlob, outer]
  | cons c chars ih =>
      obtain ⟨first, others⟩ := List.forall_mem_cons.mp plain
      obtain ⟨fuel, rfl⟩ := Nat.exists_eq_succ_of_ne_zero (Nat.ne_zero_of_lt enough)
      have further (s : GlobState) (outer : s.outer = []) := ih others
        (Nat.lt_of_succ_lt_succ enough) (s := s) outer
      have push : scanGlob (fuel + 1) s (c :: chars) =
          scanGlob fuel { s.pushChar c with previous := some c } chars := by
        simp only [scanGlob]
        split
        all_goals simp_all [isPlain]
      rw [push, further { s.pushChar c with previous := some c } outer]
      simp [GlobState.pushChar, GlobState.push, charBytes_eq]

/-- A line that ends with a slash has nothing to trim. -/
theorem trimLine_slash (pattern : List Char) : trimLine (pattern ++ ['/']) = pattern ++ ['/'] := by
  have open_ : ¬ ['\\', ' '] <:+ pattern ++ ['/'] := by
    rintro ⟨front, same⟩
    have last := congrArg List.getLast? same
    rw [List.getLast?_append_of_ne_nil _ (by simp), List.getLast?_concat] at last
    exact absurd last (by decide)
  rw [trimLine, if_neg (by rwa [List.isSuffixOf_iff_suffix]), Text.trimRight, List.reverse_append,
    List.reverse_singleton, List.singleton_append, List.dropWhile_cons_of_neg (by decide),
    List.reverse_cons, List.reverse_reverse]

variable {name : String}

namespace PlainName

/-- A plain name has no slash, no backslash and no star. -/
theorem ne_of_mem (h : PlainName name) {c : Char} (mem : c ∈ name.toList) :
    c ≠ '/' ∧ c ≠ '\\' ∧ c ≠ '*' := by
  have plain := h.plain c mem
  simp [isPlain] at plain
  tauto

/-- A name may stand at any depth. -/
theorem completePattern (h : PlainName name) :
    Ignore.completePattern false name.toList = '*' :: '*' :: '/' :: name.toList := by
  have noSlash : '/' ∉ name.toList := fun mem => (h.ne_of_mem mem).1 rfl
  have noStar : '*' ∉ name.toList := fun mem => (h.ne_of_mem mem).2.2 rfl
  have open_ : ¬ ['/', '*', '*'] <:+ '*' :: '*' :: '/' :: name.toList := by
    rintro ⟨front, same⟩
    have last := congrArg List.getLast? same
    rw [List.getLast?_append_of_ne_nil _ (by simp)] at last
    obtain ⟨before, c, whole⟩ := (List.eq_nil_or_concat name.toList).resolve_left h.some_
    rw [whole, List.concat_eq_append, ← List.cons_append, ← List.cons_append, ← List.cons_append,
      List.getLast?_concat] at last
    have mem : c ∈ name.toList := by simp [whole]
    have star : '*' = c := Option.some.inj last
    exact noStar (star ▸ mem)
  obtain ⟨c, rest, whole⟩ := List.exists_cons_of_ne_nil h.some_
  have first : '*' ≠ c := fun same => noStar (by simp [whole, ← same])
  have noDepth : ['*', '*', '/'].isPrefixOf name.toList = false ∧ name.toList ≠ ['*', '*'] := by
    simp [whole, List.isPrefixOf, first, first.symm]
  simp only [Ignore.completePattern, List.contains_eq_mem, noSlash, noDepth.1, noDepth.2,
    decide_false, Bool.not_false, Bool.or_false, Bool.and_true, if_true]
  rw [if_neg]
  rwa [List.isSuffixOf_iff_suffix]

/-- The pattern of the name is that of the rule about its directories. -/
theorem parse?_pattern (h : PlainName name) :
    Glob.parse? (Ignore.completePattern false name.toList) =
      some (directoryRule (Path.ofString name).bytes).glob := by
  have leading : GlobState.doubleStar ⟨[], [], none, false⟩ ('/' :: name.toList) =
      (⟨[.leading], [], some '/', false⟩, name.toList) := rfl
  have start : scanGlob (name.toList.length + 4) ⟨[], [], none, false⟩
      ('*' :: '*' :: '/' :: name.toList) =
        scanGlob (name.toList.length + 3) ⟨[.leading], [], some '/', false⟩ name.toList := by
    simp [scanGlob, leading]
  have enough : name.toList.length < name.toList.length + 3 := by omega
  have scanned := scanGlob_plain h.plain enough (s := ⟨[.leading], [], some '/', false⟩) rfl
  rw [← Transport.utf8_eq] at scanned
  rw [h.completePattern, Glob.parse?]
  change (scanGlob (name.toList.length + 4) _ _).map Glob.mk = _
  rw [start, scanned]
  rfl

/-- A plain name with a slash has no mark in front. -/
theorem splitMarks (h : PlainName name) :
    Ignore.splitMarks (name.toList ++ ['/']) = (false, false, name.toList ++ ['/']) := by
  obtain ⟨c, rest, whole⟩ := List.exists_cons_of_ne_nil h.some_
  have mem : c ∈ name.toList := by simp [whole]
  have start := h.start c (by simp [whole])
  have other := h.ne_of_mem mem
  simp at start
  rw [whole, List.cons_append]
  unfold Ignore.splitMarks
  split <;> simp_all

/-- A plain name with a slash is a rule for directories. -/
theorem splitDirectoryMark (h : PlainName name) :
    Ignore.splitDirectoryMark (name.toList ++ ['/']) = (true, name.toList) := by
  have open_ : name.toList.getLast? ≠ some '\\' := fun last =>
    (h.ne_of_mem (List.mem_of_getLast? last)).2.1 rfl
  rw [Ignore.splitDirectoryMark, if_pos List.getLast?_concat]
  simp only [List.dropLast_concat, if_neg open_]

/-- The name with a slash behind it is the rule about its directories. -/
theorem parse? (h : PlainName name) :
    Rule.parse? (name ++ "/").toList = some (directoryRule (Path.ofString name).bytes) := by
  have line : (name ++ "/").toList = name.toList ++ ['/'] := String.toList_append
  obtain ⟨c, rest, whole⟩ := List.exists_cons_of_ne_nil h.some_
  have start := h.start c (by simp [whole])
  have noComment : (name.toList ++ ['/']).head? ≠ some '#' := by
    rw [whole]
    simp at start ⊢
    tauto
  have notEmpty : (name.toList ++ ['/']).isEmpty = false := by simp
  simp only [line, Rule.parse?, if_neg noComment, trimLine_slash, notEmpty, h.splitMarks,
    h.splitDirectoryMark, h.parse?_pattern]
  rfl

/-- A plain name has bytes, and no slash among them. -/
theorem bytes (h : PlainName name) :
    (Path.ofString name).bytes ≠ [] ∧ Path.slash ∉ (Path.ofString name).bytes := by
  have whole : (Path.ofString name).bytes = name.toList.flatMap String.utf8EncodeChar :=
    Transport.utf8_eq name
  constructor
  · obtain ⟨c, rest, chars⟩ := List.exists_cons_of_ne_nil h.some_
    rw [whole, chars, List.flatMap_cons]
    exact List.append_ne_nil_of_left_ne_nil String.utf8EncodeChar_ne_nil _
  · intro mem
    exact (h.ne_of_mem (Transport.mem_toList_of_mem_utf8 mem (by decide))).1 rfl

end PlainName

/-- The lines of an ignore file are some names, each with a slash behind it. -/
structure ListsDirectories (file : List UInt8) (names : List String) : Prop where
  plain : ∀ n ∈ names, PlainName n
  lines : Ignore.lines file = names.map fun n => (Path.ofString (n ++ "/")).bytes

/-- Each name gives the rule about its directories. -/
theorem ListsDirectories.rules {file : List UInt8} {names : List String}
    (h : ListsDirectories file names) :
    rulesOfFile file = names.map fun n => directoryRule (Path.ofString n).bytes := by
  have some_ (isFirst : Bool) {names : List String} (plain : ∀ n ∈ names, PlainName n) :
      rulesOfLines isFirst (names.map fun n => (Path.ofString (n ++ "/")).bytes) =
        names.map fun n => directoryRule (Path.ofString n).bytes := by
    induction names generalizing isFirst with
    | nil => rfl
    | cons n names ih =>
        obtain ⟨first, others⟩ := List.forall_mem_cons.mp plain
        have text : String.fromUTF8? ⟨(Path.ofString (n ++ "/")).bytes.toArray⟩ = some (n ++ "/") :=
          Path.toString?_ofString _
        have whole : (if isFirst then (n ++ "/").toList.dropWhile (· == '\ufeff')
            else (n ++ "/").toList) = (n ++ "/").toList := by
          have line : (n ++ "/").toList = n.toList ++ ['/'] := String.toList_append
          obtain ⟨c, rest, chars⟩ := List.exists_cons_of_ne_nil first.some_
          have start := first.start c (by simp [chars])
          have mark : (c == '\ufeff') = false := by
            simp at start
            simp [start]
          rw [line, chars, List.cons_append, List.dropWhile_cons, mark]
          simp
        rw [List.map_cons, List.map_cons, rulesOfLines, text]
        dsimp only
        rw [whole, first.parse?, ih false others]
        rfl
  rw [rulesOfFile, h.lines, some_ true h.plain]

end Ignore

end SessionBroker
