import Mathlib.Data.List.DropRight
import Mathlib.Data.List.TakeDrop
import SessionBroker.Transport.Line

/-!
What the bytes of a client tell the broker.

`Transport.messages` says it for a whole input: the input is cut at its line feeds, lines are
read up to the first that is not UTF-8, and each line that is not blank tells something. Main
statements: `messages_of_reading`, reading off the front of the input, line by line, tells the
same, and `messages_ofLines`, what lines tell does not depend on how they are ended.
-/

namespace SessionBroker

/-! ### White space -/

namespace Text

variable {s t : List Char}

theorem trimRight_append_of_blank (blank : ∀ c ∈ t, isBlank c = true) :
    trimRight (s ++ t) = trimRight s := by
  rw [trimRight, List.reverse_append, List.dropWhile_append_of_pos]
  · rfl
  · exact fun c mem => blank c (List.mem_reverse.mp mem)

/-- White space at the ends of a text is nothing to what is left of it. -/
theorem trim_append_of_blank {before after : List Char} (left : ∀ c ∈ before, isBlank c = true)
    (right : ∀ c ∈ after, isBlank c = true) : trim (before ++ s ++ after) = trim s := by
  rw [trim, List.append_assoc, List.dropWhile_append_of_pos left, List.dropWhile_append, trim]
  split
  next nothing =>
    rw [List.dropWhile_eq_nil_iff.mpr right, List.isEmpty_iff.mp nothing]
  next => exact trimRight_append_of_blank right

/-- Only a text of white space is trimmed to nothing. -/
theorem trim_eq_nil_iff : trim s = [] ↔ ∀ c ∈ s, isBlank c = true := by
  have right : trim s = [] ↔ ∀ c ∈ s.dropWhile isBlank, isBlank c = true :=
    List.rdropWhile_eq_nil_iff
  rw [right]
  constructor
  · intro blank
    cases left : s.dropWhile isBlank with
    | nil => exact List.dropWhile_eq_nil_iff.mp left
    | cons c rest =>
        have stops := List.head?_dropWhile_not isBlank s
        rw [left] at stops blank
        have first := blank c (.head _)
        rw [show isBlank c = false from stops] at first
        cases first
  · intro blank
    rw [List.dropWhile_eq_nil_iff.mpr blank]
    exact nofun

end Text

namespace Transport

/-! ### Bytes of a text -/

def utf8 (s : String) : List UInt8 := s.toUTF8.data.toList

/-- The bytes of a text are those of its characters. -/
theorem utf8_eq (s : String) : utf8 s = s.toList.flatMap String.utf8EncodeChar := by
  rw [utf8, String.toUTF8_eq_toByteArray, ← String.utf8Encode_toList, List.utf8Encode,
    List.toList_data_toByteArray]

theorem utf8_append (s t : String) : utf8 (s ++ t) = utf8 s ++ utf8 t := by
  rw [utf8_eq, utf8_eq, utf8_eq, String.toList_append, List.flatMap_append]

theorem fromUTF8?_utf8 (s : String) : String.fromUTF8? ⟨(utf8 s).toArray⟩ = some s := by
  have valid : s.toByteArray.IsValidUTF8 := s.isValidUTF8
  simp only [utf8, Array.toArray_toList, String.toUTF8_eq_toByteArray]
  exact dif_pos valid

/-- A byte below 128 is written for the character of that number only. -/
theorem toNat_of_mem_utf8EncodeChar {c : Char} {b : UInt8} (mem : b ∈ String.utf8EncodeChar c)
    (ascii : b.toNat < 128) : c.toNat = b.toNat := by
  have high {n : Nat} (least : 128 ≤ n % 256) : b ≠ UInt8.ofNat n := by
    rintro rfl
    rw [UInt8.toNat_ofNat'] at ascii
    omega
  unfold String.utf8EncodeChar at mem
  dsimp only at mem
  split at mem
  next single =>
    rw [List.mem_singleton.mp mem, UInt8.toNat_ofNat']
    exact (Nat.mod_eq_of_lt (Nat.lt_of_le_of_lt single (by decide))).symm
  -- All other bytes have their highest bit set.
  next =>
    exfalso
    split at mem
    next =>
      simp only [List.mem_cons, List.not_mem_nil, or_false] at mem
      rcases mem with same | same <;> exact high (by omega) same
    split at mem
    next =>
      simp only [List.mem_cons, List.not_mem_nil, or_false] at mem
      rcases mem with same | same | same <;> exact high (by omega) same
    next =>
      simp only [List.mem_cons, List.not_mem_nil, or_false] at mem
      rcases mem with same | same | same | same <;> exact high (by omega) same

/-- A character below 128 is in a text whose bytes have its number. -/
theorem mem_of_mem_utf8 {s : String} {b : UInt8} (mem : b ∈ utf8 s) (ascii : b.toNat < 128) :
    ∃ c ∈ s.toList, c.toNat = b.toNat := by
  rw [utf8_eq] at mem
  obtain ⟨c, here, mem⟩ := List.mem_flatMap.mp mem
  exact ⟨c, here, toNat_of_mem_utf8EncodeChar mem ascii⟩

/-- A byte below 128 in a text is a character of its own. -/
theorem mem_toList_of_mem_utf8 {s : String} {b : UInt8} (mem : b ∈ utf8 s)
    (ascii : b.toNat < 128) : Char.ofNat b.toNat ∈ s.toList := by
  obtain ⟨c, here, same⟩ := mem_of_mem_utf8 mem ascii
  rwa [← same, Char.ofNat_toNat]

/-! ### Lines of an input -/

def decode? (line : List UInt8) : Option String :=
  String.fromUTF8? ⟨(withoutReturn line).toArray⟩

/-- What is left behind the last line feed: a line of its own when the input has ended, unless
there is nothing in it. -/
def lastLine (part : List UInt8) (ended : Bool) : List (List UInt8) :=
  if ended = true ∧ part ≠ [] ∧ part ≠ [carriageReturn] then [part] else []

def linesOf (input : List UInt8) (ended : Bool) : List (List UInt8) :=
  (input.splitOn lineFeed).dropLast ++ lastLine ((input.splitOn lineFeed).getLastD []) ended

/-- The texts of some lines, up to the first that is not UTF-8. -/
def texts : List (List UInt8) → List String
  | [] => []
  | line :: rest =>
    match decode? line with
    | some text => text :: texts rest
    | none => []

/-- What an input tells the broker, in order. -/
def messages (input : List UInt8) (ended : Bool) : List BrokerMessage :=
  (texts (linesOf input ended)).filterMap messageOfLine?

variable {line rest input more : List UInt8} {ended e : Bool}

/-- The first line of an input ends at the first line feed. -/
theorem linesOf_cons (inside : lineFeed ∉ line) :
    linesOf (line ++ lineFeed :: rest) ended = line :: linesOf rest ended := by
  have some_ : rest.splitOn lineFeed ≠ [] := List.splitOn_ne_nil _ _
  have cut : (line ++ lineFeed :: rest).splitOn lineFeed = line :: rest.splitOn lineFeed := by
    rw [List.splitOn_append_cons_self, List.splitOn_eq_singleton inside]
    rfl
  rw [linesOf, linesOf, cut, List.dropLast_cons_of_ne_nil some_]
  cases parts : rest.splitOn lineFeed with
  | nil => exact absurd parts some_
  | cons part parts => rfl

/-- Without a line feed there is at most the last line. -/
theorem linesOf_of_not_mem (inside : lineFeed ∉ input) :
    linesOf input ended = lastLine input ended := by
  rw [linesOf, List.splitOn_eq_singleton inside]
  rfl

/-- The reader cuts an input at its first line feed. -/
theorem readLine_cons (inside : lineFeed ∉ line) :
    readLine (line ++ lineFeed :: rest) ended = readBytes line rest := by
  have front : (line ++ lineFeed :: rest).span (· ≠ lineFeed) = (line, lineFeed :: rest) := by
    have all : ∀ b ∈ line, decide (b ≠ lineFeed) = true := fun b mem => by
      simpa using fun same : b = lineFeed => inside (same ▸ mem)
    rw [List.span_eq_takeWhile_dropWhile, List.takeWhile_append_of_pos all,
      List.dropWhile_append_of_pos all]
    simp
  rw [readLine, front]

/-- Without a line feed the reader waits for more, or takes the rest for the last line. -/
theorem readLine_of_not_mem (inside : lineFeed ∉ input) :
    readLine input ended =
      if !ended then .incomplete
      else if input = [] ∨ input = [carriageReturn] then .ended
      else readBytes input [] := by
  have front : input.span (· ≠ lineFeed) = (input, []) := by
    have all : ∀ b ∈ input, decide (b ≠ lineFeed) = true := fun b mem => by
      simpa using fun same : b = lineFeed => inside (same ▸ mem)
    rw [List.span_eq_takeWhile_dropWhile, List.takeWhile_eq_self_iff.mpr all,
      List.dropWhile_eq_nil_iff.mpr all]
  rw [readLine, front]

theorem readBytes_eq (line rest : List UInt8) :
    readBytes line rest = (decode? line).elim .broken (.line · rest) := by
  rw [readBytes, ← decode?]
  cases decode? line <;> rfl

/-- What a line tells comes before what others tell; a line that is not UTF-8 hides them. -/
theorem told_cons (line : List UInt8) (others : List (List UInt8)) :
    (texts (line :: others)).filterMap messageOfLine? =
      (decode? line).elim [] fun text =>
        (messageOfLine? text).toList ++ (texts others).filterMap messageOfLine? := by
  rw [texts]
  cases decode? line with
  | none => rfl
  | some text =>
      simp only [List.filterMap_cons, Option.elim_some]
      cases messageOfLine? text <;> rfl

/-- An input tells what its first line tells, and then what the rest tells, up to a line that is not
text. -/
theorem messages_cons (inside : lineFeed ∉ line) :
    messages (line ++ lineFeed :: rest) e =
      (decode? line).elim [] fun text => (messageOfLine? text).toList ++ messages rest e := by
  rw [messages, linesOf_cons inside, told_cons]
  rfl

/-- The last line tells what it holds, as long as it is text. -/
theorem messages_last (inside : lineFeed ∉ input) :
    messages input e = (texts (lastLine input e)).filterMap messageOfLine? := by
  rw [messages, linesOf_of_not_mem inside]

/-- Reading a line off the front of an input, and going on with the rest, tells what the input
tells, also when the client goes on writing. -/
theorem messages_of_reading (input : List UInt8)
    (later : ended = true → more = [] ∧ e = true) :
    match readLine input ended with
    | .line text rest =>
      messages (input ++ more) e = (messageOfLine? text).toList ++ messages (rest ++ more) e
    | .broken | .ended => messages (input ++ more) e = []
    | .incomplete => ended = false ∧ messages input false = [] := by
  by_cases inside : lineFeed ∈ input
  · obtain ⟨line, rest, rfl, front⟩ := List.eq_append_cons_of_mem inside
    rw [readLine_cons front, readBytes_eq, List.append_assoc, List.cons_append,
      messages_cons front]
    cases decode? line <;> rfl
  · rw [readLine_of_not_mem inside]
    cases ended with
    | false => exact ⟨rfl, messages_last inside⟩
    | true =>
        obtain ⟨rfl, rfl⟩ := later rfl
        rw [List.append_nil, messages_last inside]
        by_cases nothing : input = [] ∨ input = [carriageReturn]
        · have none_ : lastLine input true = [] := if_neg (by tauto)
          simp only [Bool.not_true, Bool.false_eq_true, if_false, if_pos nothing, none_]
          rfl
        · have one : lastLine input true = [input] := if_pos (by tauto)
          simp only [Bool.not_true, Bool.false_eq_true, if_false, if_neg nothing, one,
            readBytes_eq, told_cons]
          cases decode? input <;> rfl

/-! ### Lines as the client writes them -/

/-- White space at the ends of a line is nothing to what it tells. -/
theorem messageOfLine?_of_blank {before after : List Char} {s : String}
    (left : ∀ c ∈ before, Text.isBlank c = true) (right : ∀ c ∈ after, Text.isBlank c = true) :
    messageOfLine? (String.ofList (before ++ s.toList ++ after)) = messageOfLine? s := by
  simp only [messageOfLine?, String.toList_ofList, Text.trim_append_of_blank left right]

/-- Only a blank line tells nothing. -/
theorem messageOfLine?_eq_none {s : String} :
    messageOfLine? s = none ↔ ∀ c ∈ s.toList, Text.isBlank c = true := by
  rw [← Text.trim_eq_nil_iff, ← List.isEmpty_iff]
  unfold messageOfLine?
  dsimp only
  split
  next empty => simp [empty]
  next text => split <;> simp [text]

/-- A carriage return at the end of a line is dropped. -/
theorem decode?_return (s : String) : decode? (utf8 s ++ [carriageReturn]) = some s := by
  rw [decode?, withoutReturn, if_pos List.getLast?_concat, List.dropLast_concat, fromUTF8?_utf8]

theorem utf8_return : utf8 "\r" = [carriageReturn] := by
  rw [utf8_eq]
  decide

/-- Only a text that ends with a carriage return is written so. -/
theorem exists_of_returns {s : String} (returns : (utf8 s).getLast? = some carriageReturn) :
    ∃ text, s = text ++ "\r" := by
  rw [utf8_eq] at returns
  rcases List.eq_nil_or_concat s.toList with nothing | ⟨front, c, split⟩
  · simp [nothing] at returns
  · rw [split, List.concat_eq_append, List.flatMap_append, List.flatMap_singleton,
      List.getLast?_append, List.getLast?_eq_some_getLast String.utf8EncodeChar_ne_nil,
      Option.some_or, Option.some.injEq] at returns
    have last : carriageReturn ∈ String.utf8EncodeChar c := returns ▸ List.getLast_mem _
    have code := toNat_of_mem_utf8EncodeChar last (by decide)
    have return_ : c = '\r' := by
      rw [← Char.ofNat_toNat c, code]
      rfl
    refine ⟨String.ofList front, ?_⟩
    rw [← String.toList_inj, split, return_, String.toList_append, String.toList_ofList,
      List.concat_eq_append]
    rfl

/-- A carriage return at the end of a line is white space, whether it counts as part of the line
or not. -/
theorem decode?_utf8 (s : String) :
    ∃ text, decode? (utf8 s) = some text ∧ messageOfLine? text = messageOfLine? s := by
  by_cases returns : (utf8 s).getLast? = some carriageReturn
  · obtain ⟨text, rfl⟩ := exists_of_returns returns
    have blank : ∀ c ∈ ['\r'], Text.isBlank c = true := by
      rintro c mem
      rw [List.mem_singleton.mp mem]
      decide
    have split : text ++ "\r" = String.ofList ([] ++ text.toList ++ ['\r']) := by
      simp
    refine ⟨text, ?_, ?_⟩
    · rw [utf8_append, utf8_return, decode?_return]
    · rw [split, messageOfLine?_of_blank (List.forall_mem_nil _) blank]
  · exact ⟨s, by rw [decode?, withoutReturn, if_neg returns, fromUTF8?_utf8], rfl⟩

/-- The bytes of some lines, each with whether a carriage return comes before its line feed. -/
def ofLines (lines : List (String × Bool)) : List UInt8 :=
  lines.flatMap fun l => utf8 l.1 ++ (if l.2 then [carriageReturn] else []) ++ [lineFeed]

theorem lineFeed_not_mem_utf8 {s : String} (inside : '\n' ∉ s.toList) : lineFeed ∉ utf8 s := by
  intro mem
  exact inside (mem_toList_of_mem_utf8 mem (by decide))

/-- What lines tell depends neither on how they are ended nor on what follows. -/
theorem messages_ofLines {lines : List (String × Bool)} (inside : ∀ l ∈ lines, '\n' ∉ l.1.toList) :
    messages (ofLines lines ++ more) e =
      (lines.map (·.1)).filterMap messageOfLine? ++ messages more e := by
  induction lines with
  | nil => rfl
  | cons l lines ih =>
      obtain ⟨first, others⟩ := List.forall_mem_cons.mp inside
      obtain ⟨s, returns⟩ := l
      have told : ∃ text, decode? (utf8 s ++ if returns then [carriageReturn] else []) = some text ∧
          messageOfLine? text = messageOfLine? s := by
        cases returns with
        | true => exact ⟨s, decode?_return s, rfl⟩
        | false =>
            rw [if_neg Bool.false_ne_true, List.append_nil]
            exact decode?_utf8 s
      obtain ⟨text, decoded, same⟩ := told
      have unbroken : lineFeed ∉ utf8 s ++ if returns then [carriageReturn] else [] := by
        rw [List.mem_append, not_or]
        refine ⟨lineFeed_not_mem_utf8 first, ?_⟩
        cases returns <;> decide
      have split : ofLines ((s, returns) :: lines) ++ more =
          (utf8 s ++ if returns then [carriageReturn] else []) ++
            lineFeed :: (ofLines lines ++ more) := by
        simp [ofLines]
      rw [split, messages_cons unbroken, decoded, Option.elim_some, ih others, same,
        List.map_cons, List.filterMap_cons]
      cases messageOfLine? s <;> rfl

/-- At the end of the input the last line needs no line feed. -/
theorem messages_unended {s : String} (inside : '\n' ∉ s.toList) :
    messages (utf8 s) true = (messageOfLine? s).toList := by
  obtain ⟨text, decoded, same⟩ := decode?_utf8 s
  rw [messages_last (lineFeed_not_mem_utf8 inside), ← same]
  by_cases nothing : utf8 s = [] ∨ utf8 s = [carriageReturn]
  · have empty : decode? (utf8 s) = some "" := by
      rcases nothing with nil | returns
      · rw [nil]
        exact fromUTF8?_utf8 ""
      · rw [returns]
        exact decode?_return ""
    rw [empty, Option.some.injEq] at decoded
    have none_ : lastLine (utf8 s) true = [] := if_neg (by tauto)
    rw [none_, ← decoded]
    rfl
  · have one : lastLine (utf8 s) true = [utf8 s] := if_pos (by tauto)
    rw [one, told_cons, decoded, Option.elim_some, texts, List.filterMap_nil, List.append_nil]

end Transport

end SessionBroker
