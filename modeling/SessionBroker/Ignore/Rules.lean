import SessionBroker.Ignore.Glob
import SessionBroker.Path
import SessionBroker.Text.Blank

/-!
Rules about paths that do not count.

Each line of an ignore file is a rule: a pattern, perhaps negated, perhaps for directories
only. Of the rules that match a path the last one decides.
-/

namespace SessionBroker.Ignore

structure Rule where
  glob : Glob
  /-- The rule takes a path back in. -/
  negated : Bool
  directoriesOnly : Bool
  deriving Repr

inductive Verdict where
  | ignored
  | kept
  deriving DecidableEq, Repr

/-- What a rule says about the paths that it matches. -/
def Rule.verdict (r : Rule) : Verdict := if r.negated then .kept else .ignored

/-- Whether a rule applies to a path, a directory or not. -/
def Rule.applies (r : Rule) (path : List UInt8) (isDirectory : Bool) : Bool :=
  (isDirectory || !r.directoriesOnly) && r.glob.accepts path

/-- What the last rule that applies to a path says about it. -/
def verdict? (rules : List Rule) (path : List UInt8) (isDirectory : Bool) : Option Verdict :=
  (rules.reverse.find? (·.applies path isDirectory)).map Rule.verdict

/-- What rules say about a path, or else about its nearest parent that they say something
about. -/
def verdictWithParents? (rules : List Rule) :
    (fuel : Nat) → Path → (isDirectory : Bool) → Option Verdict
  | 0, _, _ => none
  | fuel + 1, path, isDirectory =>
    match verdict? rules path.bytes isDirectory with
    | some v => some v
    | none => path.parent?.bind fun parent => verdictWithParents? rules fuel parent true

/-! ### Reading rules -/

/-- The pattern of a line without its negation, anchor and directory mark: it may match at
any depth unless it has a slash. -/
def completePattern (anchored : Bool) (pattern : List Char) : List Char :=
  let hasDepth := ['*', '*', '/'].isPrefixOf pattern || pattern = ['*', '*']
  let pattern :=
    if !anchored && !pattern.contains '/' && !hasDepth then '*' :: '*' :: '/' :: pattern
    else pattern
  if ['/', '*', '*'].isSuffixOf pattern then pattern ++ ['/', '*'] else pattern

/-- A line without blanks at its end, unless the last one is escaped. -/
def trimLine (line : List Char) : List Char :=
  if ['\\', ' '].isSuffixOf line then line else Text.trimRight line

/-- Takes a directory mark, a slash at the end that may be escaped, off a pattern. -/
def splitDirectoryMark (pattern : List Char) : Bool × List Char :=
  if pattern.getLast? = some '/' then
    let rest := pattern.dropLast
    (true, if rest.getLast? = some '\\' then rest.dropLast else rest)
  else (false, pattern)

/-- Takes a negation and an anchor, a slash in front, off a line. -/
def splitMarks (line : List Char) : Bool × Bool × List Char :=
  match line with
  | '\\' :: '!' :: _ | '\\' :: '#' :: _ => (false, false, line.drop 1)
  | _ =>
    let (negated, line) := match line with
      | '!' :: rest => (true, rest)
      | _ => (false, line)
    match line with
    | '/' :: rest => (negated, true, rest)
    | _ => (negated, false, line)

/-- The rule of a line; nothing for comments, empty lines and malformed patterns. -/
def Rule.parse? (line : List Char) : Option Rule :=
  if line.head? = some '#' then none else
  let line := trimLine line
  if line.isEmpty then none else
  let (negated, anchored, pattern) := splitMarks line
  let (directoriesOnly, pattern) := splitDirectoryMark pattern
  (Glob.parse? (completePattern anchored pattern)).map fun glob =>
    ⟨glob, negated, directoriesOnly⟩

/-- Bytes as lines without their line ends. -/
def lines (bytes : List UInt8) : List (List UInt8) :=
  let pieces := Path.split 0x0a bytes
  let pieces := if pieces.getLast? = some [] then pieces.dropLast else pieces
  pieces.map fun line => if line.getLast? = some 0x0d then line.dropLast else line

/-- The rules of the lines up to the first one that is not UTF-8. -/
def rulesOfLines (isFirst : Bool) : List (List UInt8) → List Rule
  | [] => []
  | line :: rest =>
    match String.fromUTF8? ⟨line.toArray⟩ with
    | none => []
    | some s =>
      let chars := if isFirst then s.toList.dropWhile (· == '\ufeff') else s.toList
      (Rule.parse? chars).toList ++ rulesOfLines false rest

def rulesOfFile (content : List UInt8) : List Rule := rulesOfLines true (lines content)

end SessionBroker.Ignore
