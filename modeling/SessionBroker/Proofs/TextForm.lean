import SessionBroker.Proofs.Numerals

/-!
The text of a document.

A document is written in compact form and read back as it was. Reading is bounded by the
nesting, and a double is written in its shortest form, which may be read as a neighbour; so the
theorems ask for enough depth and for doubles that are read back from their own text. Main
statements: `scanValue_renderChars`, `parse_renderChars`, and `plain_renderChars`, no text of a
document has a control character.
-/

namespace SessionBroker.Json

/-! ### Depth and doubles of a document -/

mutual

/-- How many levels of arrays and objects a document nests. -/
def nesting : Json → Nat
  | .arr items => nestingItems items + 1
  | .obj members => nestingMembers members + 1
  | _ => 0

def nestingItems : List Json → Nat
  | [] => 0
  | v :: rest => max (nesting v) (nestingItems rest)

def nestingMembers : List (String × Json) → Nat
  | [] => 0
  | (_, v) :: rest => max (nesting v) (nestingMembers rest)

end

mutual

def floats : Json → List Binary64
  | .num (.float x) => [x]
  | .arr items => floatsOfItems items
  | .obj members => floatsOfMembers members
  | _ => []

def floatsOfItems : List Json → List Binary64
  | [] => []
  | v :: rest => floats v ++ floatsOfItems rest

def floatsOfMembers : List (String × Json) → List Binary64
  | [] => []
  | (_, v) :: rest => floats v ++ floatsOfMembers rest

end

/-- The doubles of a list are read back from their texts. -/
def LegibleFloats (xs : List Binary64) : Prop := ∀ x ∈ xs, (Number.float x).Legible

instance (xs : List Binary64) : Decidable (LegibleFloats xs) := List.decidableBAll _ xs

theorem LegibleFloats.left {xs ys : List Binary64} (legible : LegibleFloats (xs ++ ys)) :
    LegibleFloats xs := fun x mem => legible x (List.mem_append_left ys mem)

theorem LegibleFloats.right {xs ys : List Binary64} (legible : LegibleFloats (xs ++ ys)) :
    LegibleFloats ys := fun x mem => legible x (List.mem_append_right xs mem)

theorem legible_of_floats {n : Number} (legible : LegibleFloats (floats (.num n))) : n.Legible :=
  match n with
  | .int i => Number.legible_int i
  | .float x => legible x (List.mem_singleton.mpr rfl)

/-! ### Strings -/

variable {fuel depth : Nat} {rest t : List Char}

/-- How a character is written: by its letter, as a number if it is any other control character,
else as it is. -/
theorem escapeChar_cases (c : Char) :
    (∃ letter, escapeChar c = ['\\', letter] ∧ 32 ≤ letter.toNat ∧
        ∀ t, scanEscape (letter :: t) = .ok (c, t)) ∨
      (escapeChar c = '\\' :: 'u' :: hex4 c.toNat ∧ c.toNat < 32) ∨
      (escapeChar c = [c] ∧ c ≠ '"' ∧ c ≠ '\\' ∧ 32 ≤ c.toNat) := by
  have of_toNat {n : Nat} (same : c.toNat = n) : Char.ofNat n = c := by
    rw [← same, Char.ofNat_toNat]
  unfold escapeChar
  split
  case h_6 quote backslash _ _ _ =>
    split
    next same => exact .inl ⟨'b', rfl, by decide, fun t => by rw [← of_toNat same]; rfl⟩
    split
    next same => exact .inl ⟨'f', rfl, by decide, fun t => by rw [← of_toNat same]; rfl⟩
    split
    next control => exact .inr (.inl ⟨rfl, control⟩)
    next plain => exact .inr (.inr ⟨rfl, quote, backslash, Nat.le_of_not_lt plain⟩)
  all_goals exact .inl ⟨_, rfl, by decide, fun _ => rfl⟩

/-- Four characters of one byte each are read as a hexadecimal number, or not at all. -/
theorem scanHex_eq {a b c d : Char} (bytes : byteCount [a, b, c, d] = 4) :
    scanHex (a :: b :: c :: d :: t) =
      match hexValue? a b c d with
      | some n => .ok (n, t)
      | none => .error ⟨.form .invalidEscape, a :: b :: c :: d :: t, 4⟩ := by
  have front : (a :: b :: c :: d :: t).take 4 = [a, b, c, d] := rfl
  rw [scanHex, front, bytes]
  rfl

/-- The four digits of a control character stand for it. -/
theorem scanUnicode_hex4 {c : Char} (control : c.toNat < 32) :
    scanUnicode (hex4 c.toNat ++ t) = .ok (c, t) := by
  have value : ∀ n < 32, hexValue? (Nat.digitChar (n / 4096 % 16)) (Nat.digitChar (n / 256 % 16))
      (Nat.digitChar (n / 16 % 16)) (Nat.digitChar (n % 16)) = some n := by decide
  have bytes : ∀ n < 32, byteCount (hex4 n) = 4 := by decide
  have scanned : scanHex (hex4 c.toNat ++ t) = .ok (c.toNat, t) := by
    refine (scanHex_eq (bytes _ control)).trans ?_
    rw [value _ control]
    rfl
  have low : ¬ (0xDC00 ≤ c.toNat ∧ c.toNat ≤ 0xDFFF) := by omega
  have high : ¬ (0xD800 ≤ c.toNat ∧ c.toNat ≤ 0xDBFF) := by omega
  simp only [scanUnicode, scanned, bind, Except.bind, if_neg low, if_neg high, Char.ofNat_toNat]

/-- A character is read back from how it is written. -/
theorem scanChars_escapeChar (c : Char) :
    scanChars (fuel + 1) (escapeChar c ++ t) =
      (scanChars fuel t).map fun r => (c :: r.1, r.2) := by
  have escape {t' : List Char} (read : scanEscape t' = .ok (c, t)) :
      scanChars (fuel + 1) ('\\' :: t') =
        (scanChars fuel t).map fun r => (c :: r.1, r.2) := by
    simp only [scanChars, read, bind, Except.bind]
    cases scanChars fuel t <;> rfl
  rcases escapeChar_cases c with ⟨letter, text, -, read⟩ | ⟨text, control⟩ | ⟨text, apart⟩
  · rw [text]
    exact escape (read t)
  · rw [text]
    exact escape (scanUnicode_hex4 control)
  · obtain ⟨quote, backslash, plain⟩ := apart
    rw [text]
    simp only [List.cons_append, List.nil_append, scanChars, if_neg quote, if_neg backslash,
      if_neg (Nat.not_lt.mpr plain)]
    cases scanChars fuel t <;> rfl

/-- An escaped string is read back up to its closing quote. -/
theorem scanChars_flatMap {cs : List Char} (enough : cs.length < fuel) :
    scanChars fuel (cs.flatMap escapeChar ++ '"' :: rest) = .ok (cs, rest) := by
  induction cs generalizing fuel with
  | nil =>
      cases fuel with
      | zero => cases enough
      | succ fuel => rfl
  | cons c cs ih =>
      cases fuel with
      | zero => cases enough
      | succ fuel =>
          rw [List.flatMap_cons, List.append_assoc, scanChars_escapeChar,
            ih (Nat.lt_of_succ_lt_succ enough)]
          rfl

theorem escapeChar_ne_nil (c : Char) : escapeChar c ≠ [] := by
  rcases escapeChar_cases c with ⟨_, text, _⟩ | ⟨text, _⟩ | ⟨text, _⟩ <;> simp [text]

theorem length_le_flatMap (cs : List Char) : cs.length ≤ (cs.flatMap escapeChar).length := by
  induction cs with
  | nil => exact Nat.le_refl 0
  | cons c cs ih =>
      have one := List.length_pos_iff.mpr (escapeChar_ne_nil c)
      simp only [List.flatMap_cons, List.length_append, List.length_cons]
      omega

/-- A string is read back from its text. -/
theorem scanString_renderString (s : String) :
    scanString (s.toList.flatMap escapeChar ++ '"' :: rest) = .ok (s, rest) := by
  have enough : s.toList.length < (s.toList.flatMap escapeChar ++ '"' :: rest).length + 1 := by
    have le := length_le_flatMap s.toList
    simp only [List.length_append]
    omega
  rw [scanString, scanChars_flatMap enough]
  simp [bind, Except.bind, pure, Except.pure]

/-! ### Documents -/

/-- What the text of a document starts with is neither space nor the end of a list. -/
theorem head_renderChars {v : Json} (legible : LegibleFloats (floats v)) :
    ∃ c t, renderChars v = c :: t ∧ isSpace c = false ∧ c ≠ ']' := by
  cases v with
  | num n =>
      rw [renderChars]
      rcases head_of_readNumber (legible_of_floats legible) with ⟨t, text, -⟩ | ⟨c, t, text, digit, -⟩
      · exact ⟨'-', t, text, rfl, by decide⟩
      · exact ⟨c, t, text, isSpace_of_digit digit, by rintro rfl; cases digit⟩
  | bool b => cases b <;> exact ⟨_, _, rfl, rfl, by decide⟩
  | arr items => cases items <;> exact ⟨_, _, rfl, rfl, by decide⟩
  | obj members => cases members <;> exact ⟨_, _, rfl, rfl, by decide⟩
  | _ => exact ⟨_, _, rfl, rfl, by decide⟩

theorem skipSpace_cons {c : Char} (space : isSpace c = false) : skipSpace (c :: t) = c :: t :=
  List.dropWhile_cons_of_neg (by simp [space])

theorem follows_renderItems (items : List Json) : Follows (renderItems items ++ rest) := by
  cases items <;> first | exact follows_bracket _ | exact follows_comma _

theorem follows_renderMembers (members : List (String × Json)) :
    Follows (renderMembers members ++ rest) := by
  rcases members with _ | ⟨⟨k, v⟩, members⟩ <;> first | exact follows_brace _ | exact follows_comma _

theorem renderString_append (s : String) :
    renderString s ++ t = '"' :: (s.toList.flatMap escapeChar ++ '"' :: t) := by
  simp [renderString]

section

variable {c : Char} {t' after : List Char} {first : Bool} {k : String} {v : Json}
  {items : List Json} {members : List (String × Json)}

/-- One item is read, and then the others. -/
theorem scanItems_step (space : isSpace c = false) (more : c ≠ ']')
    (start : itemStart first (c :: t) = .ok t') (value : scanValue depth fuel t' = .ok (v, rest))
    (others : scanItems depth false fuel rest = .ok (items, after)) :
    scanItems depth first (fuel + 1) (c :: t) = .ok (v :: items, after) := by
  rw [scanItems, skipSpace_cons space]
  split
  next heq => cases heq
  next heq =>
    cases heq
    exact absurd rfl more
  next =>
    simp only [start, value, others, bind, Except.bind]
    rfl

/-- One member is read, and then the others. -/
theorem scanMembers_step (space : isSpace c = false) (more : c ≠ '\x7d')
    (start : memberStart first (c :: t) = .ok (k, ':' :: t'))
    (value : scanValue depth fuel t' = .ok (v, rest))
    (others : scanMembers depth false fuel rest = .ok (members, after)) :
    scanMembers depth first (fuel + 1) (c :: t) = .ok ((k, v) :: members, after) := by
  have colon : scanColon (':' :: t') = .ok t' := rfl
  rw [scanMembers, skipSpace_cons space]
  split
  next heq => cases heq
  next heq =>
    cases heq
    exact absurd rfl more
  next =>
    simp only [start, colon, value, others, bind, Except.bind]
    rfl

theorem itemStart_later (space : isSpace c = false) (more : c ≠ ']') :
    itemStart false (',' :: c :: t) = .ok (c :: t) := by
  rw [itemStart, skipSpace_cons space]
  simp [more]

theorem memberStart_first : memberStart true (renderString k ++ t) = .ok (k, t) := by
  rw [renderString_append]
  exact scanString_renderString k

theorem memberStart_later : memberStart false (',' :: (renderString k ++ t)) = .ok (k, t) := by
  rw [renderString_append]
  exact scanString_renderString k

end

mutual

/-- A document is read back from its text, whatever may follow a value behind it. -/
theorem scanValue_renderChars {v : Json} {depth fuel : Nat} {rest : List Char}
    (deep : nesting v ≤ depth) (legible : LegibleFloats (floats v)) (follows : Follows rest)
    (enough : (renderChars v).length ≤ fuel) :
    scanValue depth fuel (renderChars v ++ rest) = .ok (v, rest) := by
  cases fuel with
  | zero =>
      obtain ⟨c, t, text, -⟩ := head_renderChars legible
      simp [text] at enough
  | succ fuel =>
  match v with
  | .null => rfl
  | .bool true => rfl
  | .bool false => rfl
  | .num n => exact scanValue_number (legible_of_floats legible) follows
  | .str s =>
      have skip (t : List Char) : skipSpace ('"' :: t) = '"' :: t := rfl
      rw [renderChars, renderString_append, scanValue, skip]
      simp only [scanString_renderString]
      rfl
  | .arr [] =>
      cases depth with
      | zero => cases deep
      | succ depth =>
      cases fuel with
      | zero => simp [renderChars] at enough
      | succ fuel => rfl
  | .arr (v :: items) =>
      cases depth with
      | zero => cases deep
      | succ depth =>
      rw [nesting, nestingItems, Nat.succ_le_succ_iff, Nat.max_le] at deep
      rw [floats, floatsOfItems] at legible
      obtain ⟨c, t, text, space, more⟩ := head_renderChars legible.left
      have first : 0 < (renderChars v).length := by simp [text]
      have close : 0 < (renderItems items).length := by cases items <;> simp [renderItems]
      simp only [renderChars, List.length_cons, List.length_append] at enough
      obtain ⟨fuel, rfl⟩ : ∃ f, fuel = f + 1 := ⟨fuel - 1, by omega⟩
      have value : scanValue depth fuel (renderChars v ++ (renderItems items ++ rest)) =
          .ok (v, renderItems items ++ rest) :=
        scanValue_renderChars deep.1 legible.left (follows_renderItems items) (by omega)
      have others : scanItems depth false fuel (renderItems items ++ rest) = .ok (items, rest) :=
        scanItems_renderItems deep.2 legible.right (by omega)
      have skip (t : List Char) : skipSpace ('[' :: t) = '[' :: t := rfl
      have scanned : scanItems depth true (fuel + 1)
          (renderChars v ++ (renderItems items ++ rest)) = .ok (v :: items, rest) := by
        rw [text, List.cons_append] at value ⊢
        exact scanItems_step space more rfl value others
      rw [renderChars, List.cons_append, List.append_assoc, scanValue, skip]
      simp only [scanned]
      rfl
  | .obj [] =>
      cases depth with
      | zero => cases deep
      | succ depth =>
      cases fuel with
      | zero => simp [renderChars] at enough
      | succ fuel => rfl
  | .obj ((k, v) :: members) =>
      cases depth with
      | zero => cases deep
      | succ depth =>
      rw [nesting, nestingMembers, Nat.succ_le_succ_iff, Nat.max_le] at deep
      rw [floats, floatsOfMembers] at legible
      have close : 0 < (renderMembers members).length := by
        rcases members with _ | ⟨⟨_, _⟩, _⟩ <;> simp [renderMembers]
      simp only [renderChars, List.length_cons, List.length_append] at enough
      obtain ⟨fuel, rfl⟩ : ∃ f, fuel = f + 1 := ⟨fuel - 1, by omega⟩
      have value : scanValue depth fuel (renderChars v ++ (renderMembers members ++ rest)) =
          .ok (v, renderMembers members ++ rest) :=
        scanValue_renderChars deep.1 legible.left (follows_renderMembers members) (by omega)
      have others : scanMembers depth false fuel (renderMembers members ++ rest) =
          .ok (members, rest) :=
        scanMembers_renderMembers deep.2 legible.right (by omega)
      have skip (t : List Char) : skipSpace ('\x7b' :: t) = '\x7b' :: t := rfl
      have scanned : scanMembers depth true (fuel + 1)
          (renderString k ++ ':' :: (renderChars v ++ (renderMembers members ++ rest))) =
          .ok ((k, v) :: members, rest) :=
        scanMembers_step rfl (by decide) memberStart_first value others
      rw [renderChars, List.cons_append, List.append_assoc, List.cons_append, List.append_assoc,
        scanValue, skip]
      simp only [scanned]
      rfl

/-- The items after the first one are read back from their text. -/
theorem scanItems_renderItems {items : List Json} {depth fuel : Nat} {rest : List Char}
    (deep : nestingItems items ≤ depth) (legible : LegibleFloats (floatsOfItems items))
    (enough : (renderItems items).length ≤ fuel) :
    scanItems depth false fuel (renderItems items ++ rest) = .ok (items, rest) := by
  cases fuel with
  | zero => cases items <;> cases enough
  | succ fuel =>
  match items with
  | [] => rfl
  | v :: items =>
      rw [nestingItems, Nat.max_le] at deep
      rw [floatsOfItems] at legible
      obtain ⟨c, t, text, space, more⟩ := head_renderChars legible.left
      simp only [renderItems, List.length_cons, List.length_append] at enough
      have value : scanValue depth fuel (renderChars v ++ (renderItems items ++ rest)) =
          .ok (v, renderItems items ++ rest) :=
        scanValue_renderChars deep.1 legible.left (follows_renderItems items) (by omega)
      have others : scanItems depth false fuel (renderItems items ++ rest) = .ok (items, rest) :=
        scanItems_renderItems deep.2 legible.right (by omega)
      rw [renderItems, List.cons_append, List.append_assoc]
      refine scanItems_step rfl (by decide) ?_ value others
      rw [text]
      exact itemStart_later space more

/-- The members after the first one are read back from their text. -/
theorem scanMembers_renderMembers {members : List (String × Json)} {depth fuel : Nat}
    {rest : List Char} (deep : nestingMembers members ≤ depth)
    (legible : LegibleFloats (floatsOfMembers members))
    (enough : (renderMembers members).length ≤ fuel) :
    scanMembers depth false fuel (renderMembers members ++ rest) = .ok (members, rest) := by
  cases fuel with
  | zero => rcases members with _ | ⟨⟨k, v⟩, members⟩ <;> cases enough
  | succ fuel =>
  match members with
  | [] => rfl
  | (k, v) :: members =>
      rw [nestingMembers, Nat.max_le] at deep
      rw [floatsOfMembers] at legible
      simp only [renderMembers, List.length_cons, List.length_append] at enough
      have value : scanValue depth fuel (renderChars v ++ (renderMembers members ++ rest)) =
          .ok (v, renderMembers members ++ rest) :=
        scanValue_renderChars deep.1 legible.left (follows_renderMembers members) (by omega)
      have others : scanMembers depth false fuel (renderMembers members ++ rest) =
          .ok (members, rest) :=
        scanMembers_renderMembers deep.2 legible.right (by omega)
      rw [renderMembers, List.cons_append, List.append_assoc, List.cons_append, List.append_assoc]
      exact scanMembers_step rfl (by decide) memberStart_later value others

end

/-- A document is read back from the start of a text. -/
theorem scanDocument_renderChars {v : Json} (deep : nesting v ≤ depth)
    (legible : LegibleFloats (floats v)) (follows : Follows rest) :
    scanDocument depth (renderChars v ++ rest) = .ok (v, rest) := by
  refine scanValue_renderChars deep legible follows ?_
  simp only [fuelFor, List.length_append]
  omega

/-- A document that nests no deeper than a text may is what its text holds. -/
theorem parse_renderChars {v : Json} (deep : nesting v ≤ depthLimit)
    (legible : LegibleFloats (floats v)) : parse (renderChars v) = .ok v := by
  have scanned := scanDocument_renderChars deep legible follows_nil
  rw [List.append_nil] at scanned
  simp only [parse, scanned, bind, Except.bind]
  rfl

/-! ### Characters of a text -/

/-- No character of a text is a control character below the space. -/
def Plain (t : List Char) : Prop := ∀ c ∈ t, 32 ≤ c.toNat

instance (t : List Char) : Decidable (Plain t) := List.decidableBAll _ t

theorem plain_nil : Plain [] := nofun

theorem plain_cons {c : Char} (first : 32 ≤ c.toNat) (others : Plain t) : Plain (c :: t) :=
  List.forall_mem_cons.mpr ⟨first, others⟩

theorem Plain.append {u : List Char} (left : Plain t) (right : Plain u) : Plain (t ++ u) :=
  List.forall_mem_append.mpr ⟨left, right⟩

theorem Plain.sublist {u : List Char} (plain : Plain t) (sub : u.Sublist t) : Plain u :=
  fun c mem => plain c (sub.mem mem)

theorem plain_toDigits (n : Nat) : Plain (Nat.toDigits 10 n) := by
  intro c mem
  have digit := Nat.isDigit_of_mem_toDigits (by decide) (by decide) mem
  simp only [Char.isDigit, Bool.and_eq_true, decide_eq_true_eq] at digit
  exact Nat.le_trans (by decide) digit.1

theorem plain_zeros (n : Nat) : Plain (FloatLayout.zeros n).toList := by
  intro c mem
  simp only [FloatLayout.zeros, String.toList_ofList] at mem
  rw [List.eq_of_mem_replicate mem]
  decide

theorem plain_positional {digits : String} (plain : Plain digits.toList) (place : Int) :
    Plain (FloatLayout.positional digits place).toList := by
  unfold FloatLayout.positional
  dsimp only
  split
  · simp only [String.toList_append]
    exact (plain.append (plain_zeros _)).append (by decide)
  split
  · simp only [String.toList_append, String.toList_ofList]
    exact ((plain.sublist (List.take_sublist _ _)).append (by decide)).append
      (plain.sublist (List.drop_sublist _ _))
  · simp only [String.toList_append]
    exact (Plain.append (by decide) (plain_zeros _)).append plain

theorem plain_scientific {digits : String} (plain : Plain digits.toList) (place : Int) :
    Plain (FloatLayout.scientific digits place).toList := by
  have sign : Plain (if place - 1 < 0 then "e-" else "e+").toList := by split <;> decide
  have digits_ : Plain (toString (place - 1).natAbs).toList := by
    rw [Nat.toString_eq_repr, Nat.toList_repr]
    exact plain_toDigits _
  simp only [FloatLayout.scientific, String.toList_append]
  refine Plain.append (Plain.append ?_ sign) digits_
  split
  next => exact plain_nil
  next d text => simpa [text] using plain
  next d rest _ text =>
    rw [text] at plain
    obtain ⟨first, others⟩ := List.forall_mem_cons.mp plain
    simpa using plain_cons first (plain_cons (by decide) others)

theorem plain_render (layout : FloatLayout) (x : Binary64) : Plain (layout.render x).toList := by
  have digits : Plain (toString x.shortest.digits).toList := by
    rw [Nat.toString_eq_repr, Nat.toList_repr]
    exact plain_toDigits _
  have magnitude (p : Prop) [Decidable p] (q : Bool) (place : Int) :
      Plain (if p then "0.0" else if q then FloatLayout.positional (toString x.shortest.digits) place
        else FloatLayout.scientific (toString x.shortest.digits) place).toList := by
    split
    · decide
    split
    · exact plain_positional digits place
    · exact plain_scientific digits place
  unfold FloatLayout.render
  dsimp only
  split
  · rw [String.toList_append]
    exact Plain.append (by decide) (magnitude _ _ _)
  · exact magnitude _ _ _

theorem plain_renderNumber (n : Number) : Plain (renderNumber n) := by
  cases n with
  | float x => exact plain_render FloatLayout.document x
  | int i =>
      cases value : i.val with
      | ofNat n =>
          rw [renderNumber_nat value]
          exact plain_toDigits n
      | negSucc n =>
          rw [renderNumber_neg value]
          exact plain_cons (by decide) (plain_toDigits (n + 1))

theorem plain_escapeChar (c : Char) : Plain (escapeChar c) := by
  have hex4 : ∀ n < 32, Plain (hex4 n) := by decide
  rcases escapeChar_cases c with ⟨letter, text, plain, -⟩ | ⟨text, control⟩ | ⟨text, -, -, plain⟩
  · rw [text]
    exact plain_cons (by decide) (plain_cons plain plain_nil)
  · rw [text]
    exact plain_cons (by decide) (plain_cons (by decide) (hex4 _ control))
  · rw [text]
    exact plain_cons plain plain_nil

theorem plain_renderString (s : String) : Plain (renderString s) := by
  refine plain_cons (by decide) (Plain.append (fun c mem => ?_) (by decide))
  obtain ⟨d, -, mem⟩ := List.mem_flatMap.mp mem
  exact plain_escapeChar d c mem

mutual

/-- No text of a document has a control character. -/
theorem plain_renderChars : ∀ v : Json, Plain (renderChars v)
  | .null => (by decide : Plain ['n', 'u', 'l', 'l'])
  | .bool true => (by decide : Plain ['t', 'r', 'u', 'e'])
  | .bool false => (by decide : Plain ['f', 'a', 'l', 's', 'e'])
  | .num n => plain_renderNumber n
  | .str s => plain_renderString s
  | .arr [] => (by decide : Plain ['[', ']'])
  | .arr (v :: items) =>
      plain_cons (by decide) ((plain_renderChars v).append (plain_renderItems items))
  | .obj [] => (by decide : Plain ['\x7b', '\x7d'])
  | .obj ((k, v) :: members) =>
      plain_cons (by decide) ((plain_renderString k).append
        (plain_cons (by decide) ((plain_renderChars v).append (plain_renderMembers members))))

theorem plain_renderItems : ∀ items : List Json, Plain (renderItems items)
  | [] => (by decide : Plain [']'])
  | v :: items =>
      plain_cons (by decide) ((plain_renderChars v).append (plain_renderItems items))

theorem plain_renderMembers : ∀ members : List (String × Json), Plain (renderMembers members)
  | [] => (by decide : Plain ['\x7d'])
  | (k, v) :: members =>
      plain_cons (by decide) ((plain_renderString k).append
        (plain_cons (by decide) ((plain_renderChars v).append (plain_renderMembers members))))

end

end SessionBroker.Json
