/-!
Patterns for file names.

A pattern is a list of tokens. It is matched against a whole path byte by byte, so that a
question mark stands for one byte. Stars stop at slashes; two stars between slashes stand
for any number of directories.
-/

namespace SessionBroker.Ignore

inductive Token where
  | byte (b : UInt8)
  /-- One byte that is not a slash. -/
  | any
  /-- Any bytes but slashes. -/
  | star
  /-- Any directories in front. -/
  | leading
  /-- Everything inside a directory. -/
  | trailing
  /-- A slash, or any directories between slashes. -/
  | between
  /-- One byte in some ranges, or outside of them. -/
  | oneOf (negated : Bool) (ranges : List (UInt8 × UInt8))
  | alternatives (branches : List (List Token))
  deriving Repr

namespace Token

def slash : UInt8 := 0x2f

def dot : UInt8 := 0x2e

/-- The rest of a path after each of its slashes. -/
def afterSlashes : List UInt8 → List (List UInt8)
  | [] => []
  | b :: rest => if b = slash then rest :: afterSlashes rest else afterSlashes rest

/-- The rests of a path after none, one or more of its bytes up to a slash. -/
def afterName : List UInt8 → List (List UInt8)
  | [] => [[]]
  | b :: rest => if b = slash then [b :: rest] else (b :: rest) :: afterName rest

def rests : List UInt8 → List (List UInt8)
  | [] => [[]]
  | b :: rest => (b :: rest) :: rests rest

/-- The rests of a path that a token without alternatives can leave. -/
def leave : Token → List UInt8 → List (List UInt8)
  | .byte b, c :: rest => if b = c then [rest] else []
  | .any, c :: rest => if c = slash then [] else [rest]
  | .star, path => afterName path
  | .leading, path => path :: afterSlashes path
  | .trailing, c :: rest => if c = slash then rests rest else []
  | .between, c :: rest => if c = slash then rest :: afterSlashes rest else []
  | .oneOf negated ranges, c :: rest =>
    if (ranges.any fun r => r.1 ≤ c && c ≤ r.2) == negated then [] else [rest]
  | _, _ => []

end Token

mutual

/-- The rests of a path that tokens can leave of some rests of it. Alternatives whose branches
are all empty stand for nothing. -/
def leaveAll : List Token → List (List UInt8) → List (List UInt8)
  | [], paths => paths
  | .alternatives branches :: tokens, paths =>
    let left := leaveSome branches paths
    leaveAll tokens (if branches.all List.isEmpty then paths else left).eraseDups
  | token :: tokens, paths => leaveAll tokens (paths.flatMap token.leave).eraseDups

/-- The rests that one of several branches can leave. A branch that is empty does not
count. -/
def leaveSome : List (List Token) → List (List UInt8) → List (List UInt8)
  | [], _ => []
  | branch :: branches, paths =>
    (if branch.isEmpty then [] else leaveAll branch paths) ++ leaveSome branches paths

end

/-- Whether tokens match a whole path. -/
def matchTokens (tokens : List Token) (path : List UInt8) : Bool :=
  (leaveAll tokens [path]).contains []

structure Glob where
  tokens : List Token
  deriving Repr

namespace Glob

def isByte : Token → Bool
  | .byte _ => true
  | _ => false

def isSlash : Token → Bool
  | .byte b => b == Token.slash
  | _ => false

/-- Whether a pattern that ends with a dot is looked up by the name of a file: it has
wildcards, other than leading directories before a path. -/
def looksUpName (g : Glob) : Bool :=
  match g.tokens with
  | .leading :: rest => !(rest.all isByte && rest.any isSlash)
  | tokens => !tokens.all isByte

def endsWithDot (g : Glob) : Bool :=
  match g.tokens.getLast? with
  | some (.byte b) => b == Token.dot
  | _ => false

/-- Whether a path matches. A path that ends with a dot has no name, so a pattern that is
looked up by the name does not match it. Two stars alone match everything. -/
def accepts (g : Glob) (path : List UInt8) : Bool :=
  match g.tokens with
  | [.leading] => true
  | tokens =>
    !(path.getLast? == some Token.dot && g.endsWithDot && g.looksUpName) &&
      matchTokens tokens path

end Glob

/-! ### Reading patterns -/

def charBytes (c : Char) : List UInt8 := (String.ofList [c]).toUTF8.data.toList

/-- The byte ranges of one character range of a class, each end taken as its bytes. -/
def classRanges (r : Char × Char) : List (UInt8 × UInt8) :=
  let single (b : UInt8) : UInt8 × UInt8 := (b, b)
  let low := charBytes r.1
  let high := charBytes r.2
  if r.1 = r.2 then low.map single
  else
    match low.getLast?, high with
    | some a, b :: rest => low.dropLast.map single ++ (a, b) :: rest.map single
    | _, _ => []

/-- What was found of a class so far. -/
structure ClassState where
  ranges : List (Char × Char)
  first : Bool
  inRange : Bool

inductive ClassResult where
  | closed (ranges : List (Char × Char)) (rest : List Char)
  /-- A range whose ends are in the wrong order. -/
  | invalid
  | unclosed

/-- Extends the last range to a character, if that is not before its start. -/
def extendLast (ranges : List (Char × Char)) (c : Char) : Option (List (Char × Char)) :=
  ranges.getLast?.bind fun (a, _) =>
    if c < a then none else some (ranges.dropLast ++ [(a, c)])

/-- The ranges of a class up to its closing bracket. A bracket or a minus that comes first
stands for itself, as does a minus that comes last. -/
def scanClass (s : ClassState) : List Char → ClassResult
  | [] => .unclosed
  | c :: rest =>
    if c = ']' && !s.first then
      .closed (if s.inRange then s.ranges ++ [('-', '-')] else s.ranges) rest
    else if c = '-' && !s.first && !s.inRange then
      scanClass { s with inRange := true } rest
    else if s.inRange then
      match extendLast s.ranges c with
      | some ranges => scanClass ⟨ranges, false, false⟩ rest
      | none => .invalid
    else scanClass ⟨s.ranges ++ [(c, c)], false, false⟩ rest

/-- A pattern that is being read: the branches of open alternatives, innermost first, each
with its tokens in reverse. -/
structure GlobState where
  /-- The tokens outside of alternatives, or of the branch that is being read. -/
  current : List Token
  /-- For each open brace: the finished branches, and the tokens before the brace. -/
  outer : List (List (List Token) × List Token)
  /-- The character before the next one. -/
  previous : Option Char
  /-- Whether a bracket was found not to start a class; then none does. -/
  bracketsAreText : Bool

namespace GlobState

def push (s : GlobState) (tokens : List Token) : GlobState :=
  { s with current := tokens.reverse ++ s.current }

def pushChar (s : GlobState) (c : Char) : GlobState := s.push ((charBytes c).map .byte)

/-- Replaces the last token by one for directories, unless it stands for some already. -/
def replaceLast (s : GlobState) (token : Token) : GlobState :=
  match s.current with
  | .leading :: _ | .trailing :: _ => s
  | _ :: before => { s with current := token :: before }
  | [] => { s with current := [token] }

/-- Two stars, with the text after them; gives the text that is left. -/
def doubleStar (s : GlobState) (rest : List Char) : GlobState × List Char :=
  let plain := (s.push [.star, .star], rest)
  let nested := !s.outer.isEmpty
  if s.current.isEmpty then
    match rest with
    | [] => (s.push [.leading], [])
    | '/' :: rest => ({ s with previous := some '/' }.push [.leading], rest)
    | _ => plain
  else if s.previous != some '/' && !(nested && (s.previous == some ',' || s.previous == some '\x7b'))
  then plain
  else
    match rest with
    | [] => (s.replaceLast .trailing, [])
    | '/' :: rest => ({ s with previous := some '/' }.replaceLast .between, rest)
    | c :: _ =>
      if nested && (c = ',' || c = '\x7d') then (s.replaceLast .trailing, rest) else plain

end GlobState

/-- Reads the tokens of a pattern; nothing for a pattern that is malformed. -/
def scanGlob : (fuel : Nat) → GlobState → List Char → Option (List Token)
  | 0, _, _ => none
  | _, s, [] => if s.outer.isEmpty then some s.current.reverse else none
  | fuel + 1, s, c :: rest =>
    let go (s : GlobState) (previous : Char) (rest : List Char) : Option (List Token) :=
      scanGlob fuel { s with previous := some previous } rest
    match c with
    | '?' => go (s.push [.any]) c rest
    | '*' =>
      match rest with
      | '*' :: rest =>
        let (s', left) := s.doubleStar rest
        let last := if left.length < rest.length then '/' else '*'
        go s' last left
      | _ => go (s.push [.star]) c rest
    | '[' =>
      if s.bracketsAreText then go (s.pushChar c) c rest
      else
        let (negated, body) := match rest with
          | '!' :: body | '^' :: body => (true, body)
          | body => (false, body)
        match scanClass ⟨[], true, false⟩ body with
        | .closed ranges rest => go (s.push [.oneOf negated (ranges.flatMap classRanges)]) ']' rest
        | .invalid => none
        | .unclosed => go { s.pushChar c with bracketsAreText := true } c rest
    | '\x7b' => go { s with current := [], outer := ([], s.current) :: s.outer } c rest
    | '\x7d' =>
      match s.outer with
      | [] => none
      | (branches, before) :: outer =>
        let branches := (s.current.reverse :: branches).reverse
        go { s with current := .alternatives branches :: before, outer } c rest
    | ',' =>
      match s.outer with
      | [] => go (s.pushChar c) c rest
      | (branches, before) :: outer =>
        go { s with current := [], outer := (s.current.reverse :: branches, before) :: outer } c rest
    | '\\' =>
      match rest with
      | [] => none
      | d :: rest => go (s.pushChar d) d rest
    | _ => go (s.pushChar c) c rest

def Glob.parse? (pattern : List Char) : Option Glob :=
  (scanGlob (pattern.length + 1) ⟨[], [], none, false⟩ pattern).map Glob.mk

end SessionBroker.Ignore
