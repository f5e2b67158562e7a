import SessionBroker.Json.Render
import SessionBroker.Json.Scan

/-!
The text of a number.

A number is written with digits, a point, signs and an `e`. What follows it in a document is
none of these, so a numeral is read up to its end. Main statements: `legible_int`, an integer is
read back from its text, and `scanValue_number`, a number that is read back from its text alone
is read back in any document.
-/

namespace SessionBroker

/-! ### Digits -/

namespace Json

/-- What stands behind a value in a document: nothing, or what goes on with or ends a list or an
object. -/
def Follows (rest : List Char) : Prop :=
  ∀ c ∈ rest.head?, c = ',' ∨ c = ']' ∨ c = '\x7d'

theorem follows_nil : Follows [] := nofun

theorem follows_comma (rest : List Char) : Follows (',' :: rest) := by
  rintro _ ⟨⟩
  exact .inl rfl

theorem follows_bracket (rest : List Char) : Follows (']' :: rest) := by
  rintro _ ⟨⟩
  exact .inr (.inl rfl)

theorem follows_brace (rest : List Char) : Follows ('\x7d' :: rest) := by
  rintro _ ⟨⟩
  exact .inr (.inr rfl)

variable {t rest after : List Char} {ds : List Nat}

/-- What follows a numeral has no digit in front. -/
theorem Follows.takeDigits (follows : Follows rest) : takeDigits rest = ([], rest) := by
  cases rest with
  | nil => rfl
  | cons c rest =>
      have none_ : digit? c = none := by rcases follows c rfl with rfl | rfl | rfl <;> decide
      simp only [Json.takeDigits, none_]

/-- Digits are read up to what follows the number. -/
theorem takeDigits_append (follows : Follows rest) (taken : takeDigits t = (ds, after)) :
    takeDigits (t ++ rest) = (ds, after ++ rest) := by
  induction t generalizing ds with
  | nil =>
      cases taken
      exact follows.takeDigits
  | cons c t ih =>
      rw [List.cons_append, takeDigits]
      rw [takeDigits] at taken
      cases digit : digit? c with
      | none =>
          simp only [digit] at taken
          cases taken
          rfl
      | some d =>
          simp only [digit] at taken
          cases taken
          simp only [ih rfl]

/-- The digits of a natural number, the first one first. -/
def digitsOf (n : Nat) : List Nat := (Nat.toDigits 10 n).map fun c => c.toNat - '0'.toNat

/-- A digit has the value of its place among the digits. -/
theorem digit?_of_isDigit {c : Char} (digit : c.isDigit = true) :
    digit? c = some (c.toNat - '0'.toNat) := by
  simp only [Char.isDigit, Bool.and_eq_true, decide_eq_true_eq] at digit
  exact if_pos digit

theorem takeDigits_of_isDigit {cs : List Char} (digits : ∀ c ∈ cs, c.isDigit = true) :
    takeDigits cs = (cs.map fun c => c.toNat - '0'.toNat, []) := by
  induction cs with
  | nil => rfl
  | cons c cs ih =>
      obtain ⟨first, others⟩ := List.forall_mem_cons.mp digits
      simp only [takeDigits, digit?_of_isDigit first, ih others, List.map_cons]

/-- The digits of a natural number are taken whole. -/
theorem takeDigits_toDigits (n : Nat) : takeDigits (Nat.toDigits 10 n) = (digitsOf n, []) :=
  takeDigits_of_isDigit fun _ mem => Nat.isDigit_of_mem_toDigits (by decide) (by decide) mem

theorem digitsOf_of_lt {n : Nat} (small : n < 10) : digitsOf n = [n] := by
  simp [digitsOf, Nat.toDigits_of_lt_base small, Nat.toNat_digitChar_sub_48_of_lt_ten small]

theorem digitsOf_of_le {n : Nat} (large : 10 ≤ n) :
    digitsOf n = digitsOf (n / 10) ++ [n % 10] := by
  have last : n % 10 < 10 := Nat.mod_lt n (by decide)
  rw [digitsOf, Nat.toDigits_of_base_le (by decide) large, List.map_append, ← digitsOf]
  simp [Nat.toNat_digitChar_sub_48_of_lt_ten last]

theorem digitsOf_ne_nil (n : Nat) : digitsOf n ≠ [] := by
  simp [digitsOf, Nat.toDigits_ne_nil]

/-- Only zero starts with the digit zero. -/
theorem head_digitsOf {n : Nat} (positive : 0 < n) : (digitsOf n).head? ≠ some 0 := by
  induction n using Nat.strongRecOn with
  | ind n ih =>
      rcases Nat.lt_or_ge n 10 with small | large
      · rw [digitsOf_of_lt small]
        simpa using Nat.ne_of_gt positive
      · rw [digitsOf_of_le large]
        have rest := ih (n / 10) (by omega) (by omega)
        cases shape : digitsOf (n / 10) with
        | nil => exact absurd shape (digitsOf_ne_nil _)
        | cons d ds => rwa [shape] at rest

/-! ### Numerals

Each part of a numeral is read alike whether the text ends behind it or goes on with what may
follow a value. -/

namespace Numeral

variable {atEnd : FormFault} {negative : Bool} {e : Bool × List Nat} {n : Numeral}

/-- The digits before the point are scanned in front of anything that can follow. -/
theorem scanWhole_append (follows : Follows rest) (scanned : scanWhole atEnd t = .ok (ds, after)) :
    scanWhole atEnd (t ++ rest) = .ok (ds, after ++ rest) := by
  unfold scanWhole at scanned ⊢
  rcases taken : takeDigits t with ⟨found, left⟩
  rw [takeDigits_append follows taken]
  rw [taken] at scanned
  match found, scanned with
  | [], scanned => cases left <;> cases scanned
  | [d], scanned => cases d <;> (cases scanned; rfl)
  | 0 :: _ :: _, scanned => cases scanned
  | (d + 1) :: d' :: more, scanned =>
      cases scanned
      rfl

theorem scanFraction_append (follows : Follows rest)
    (scanned : scanFraction atEnd t = .ok (ds, after)) :
    scanFraction atEnd (t ++ rest) = .ok (ds, after ++ rest) := by
  unfold scanFraction at scanned ⊢
  rcases taken : takeDigits t with ⟨found, left⟩
  rw [takeDigits_append follows taken]
  rw [taken] at scanned
  cases found with
  | nil => cases left <;> cases scanned
  | cons d found =>
      cases scanned
      rfl

/-- The sign of an exponent (true for a minus), and the text of its digits. -/
def exponentSign : List Char → Bool × List Char
  | '+' :: t => (false, t)
  | '-' :: t => (true, t)
  | t => (false, t)

theorem exponentSign_append (given : t ≠ []) :
    exponentSign (t ++ rest) = ((exponentSign t).1, (exponentSign t).2 ++ rest) := by
  cases t with
  | nil => exact absurd rfl given
  | cons c t =>
      by_cases plus : c = '+'
      · subst plus
        rfl
      by_cases dash : c = '-'
      · subst dash
        rfl
      simp [exponentSign, plus, dash]

theorem scanExponent_eq (t : List Char) :
    scanExponent atEnd t =
      (scanFraction atEnd (exponentSign t).2).map fun r => (((exponentSign t).1, r.1), r.2) := by
  cases t with
  | nil => rfl
  | cons c t =>
      by_cases plus : c = '+'
      · subst plus
        rcases taken : takeDigits t with ⟨_ | ⟨d, ds⟩, _ | ⟨c, rest⟩⟩ <;>
          simp [scanExponent, exponentSign, scanFraction, taken, Except.map]
      by_cases dash : c = '-'
      · subst dash
        rcases taken : takeDigits t with ⟨_ | ⟨d, ds⟩, _ | ⟨c, rest⟩⟩ <;>
          simp [scanExponent, exponentSign, scanFraction, taken, Except.map]
      rcases taken : takeDigits (c :: t) with ⟨_ | ⟨d, ds⟩, _ | ⟨c', rest⟩⟩ <;>
        simp [scanExponent, exponentSign, scanFraction, plus, dash, taken, Except.map]

/-- An exponent is scanned in front of anything that can follow. -/
theorem scanExponent_append (follows : Follows rest)
    (scanned : scanExponent atEnd t = .ok (e, after)) :
    scanExponent atEnd (t ++ rest) = .ok (e, after ++ rest) := by
  have given : t ≠ [] := by
    rintro rfl
    cases scanned
  rw [scanExponent_eq] at scanned ⊢
  rw [exponentSign_append given]
  cases digits : scanFraction atEnd (exponentSign t).2 with
  | error => simp [digits, Except.map] at scanned
  | ok found =>
      rw [digits] at scanned
      cases scanned
      rw [scanFraction_append follows digits]
      rfl

/-- A part of a numeral that one of some letters starts, if there is one. -/
def optionalPart {α : Type} (letters : List Char) (scan : List Char → Except Stop (α × List Char)) :
    List Char → Except Stop (Option α × List Char)
  | [] => .ok (none, [])
  | c :: t => if c ∈ letters then (scan t).map fun r => (some r.1, r.2) else .ok (none, c :: t)

/-- An optional part is scanned in front of anything that does not begin with its letter. -/
theorem optionalPart_append {α : Type} {letters : List Char}
    {scan : List Char → Except Stop (α × List Char)} {x : Option α}
    (apart : ∀ c ∈ rest.head?, c ∉ letters)
    (scan_append : ∀ {t r after}, scan t = .ok (r, after) →
      scan (t ++ rest) = .ok (r, after ++ rest))
    (scanned : optionalPart letters scan t = .ok (x, after)) :
    optionalPart letters scan (t ++ rest) = .ok (x, after ++ rest) := by
  cases t with
  | nil =>
      cases scanned
      cases rest with
      | nil => rfl
      | cons c rest => exact if_neg (apart c rfl)
  | cons c t =>
      rw [optionalPart] at scanned
      rw [List.cons_append, optionalPart]
      split at scanned
      next starts =>
        rw [if_pos starts]
        cases part : scan t with
        | error => rw [part] at scanned; cases scanned
        | ok found =>
            rw [part] at scanned
            cases scanned
            rw [scan_append part]
            rfl
      next starts =>
        rw [if_neg starts]
        cases scanned
        rfl

section

variable {α : Type} (k : Option (List Nat) × List Char → Except Stop α)
  (k' : Option (Bool × List Nat) × List Char → Except Stop α)

/-- The scanner looks for a point and a fraction behind it. -/
theorem fraction_bind (t : List Char) :
    (match t with
      | '.' :: rest => do
        let x ← scanFraction atEnd rest
        let x ← pure (some x.1, x.2)
        k x
      | _ => do
        let x ← pure (none, t)
        k x) = optionalPart ['.'] (scanFraction atEnd) t >>= k := by
  cases t with
  | nil => rfl
  | cons c t =>
      by_cases point : c = '.'
      · subst point
        simp only [optionalPart, List.mem_singleton, if_true]
        cases scanFraction atEnd t <;> rfl
      · simp [optionalPart, point, pure_bind]
        rfl

/-- The scanner looks for an exponent with either letter. -/
theorem exponent_bind (t : List Char) :
    (match t with
      | 'e' :: rest => do
        let x ← scanExponent atEnd rest
        let x ← pure (some x.1, x.2)
        k' x
      | 'E' :: rest => do
        let x ← scanExponent atEnd rest
        let x ← pure (some x.1, x.2)
        k' x
      | _ => do
        let x ← pure (none, t)
        k' x) = optionalPart ['e', 'E'] (scanExponent atEnd) t >>= k' := by
  cases t with
  | nil => rfl
  | cons c t =>
      by_cases lower : c = 'e'
      · subst lower
        simp only [optionalPart, List.mem_cons, true_or, if_true]
        cases scanExponent atEnd t <;> rfl
      by_cases upper : c = 'E'
      · subst upper
        simp only [optionalPart, List.mem_cons, true_or, or_true, if_true]
        cases scanExponent atEnd t <;> rfl
      · simp [optionalPart, lower, upper, pure_bind]
        rfl

end

/-- A numeral is digits, perhaps a fraction, and perhaps an exponent. -/
theorem scan_eq (t : List Char) :
    scan atEnd negative t = (do
      let (whole, t) ← scanWhole atEnd t
      let (fraction, t) ← optionalPart ['.'] (scanFraction atEnd) t
      let (exponent, t) ← optionalPart ['e', 'E'] (scanExponent atEnd) t
      return (⟨negative, whole, fraction, exponent⟩, t)) := by
  unfold scan
  refine bind_congr fun ⟨whole, t⟩ => ?_
  refine (fraction_bind _ t).trans ?_
  exact bind_congr fun ⟨fraction, t⟩ => exponent_bind _ t

/-- A numeral is read up to what follows it. -/
theorem scan_append (follows : Follows rest) (scanned : scan atEnd negative t = .ok (n, after)) :
    scan atEnd negative (t ++ rest) = .ok (n, after ++ rest) := by
  have apart {c : Char} (head : c ∈ rest.head?) : c ∉ ['.'] ∧ c ∉ ['e', 'E'] := by
    rcases follows c head with rfl | rfl | rfl <;> decide
  rw [scan_eq] at scanned ⊢
  cases whole : scanWhole atEnd t with
  | error => rw [whole] at scanned; cases scanned
  | ok w =>
  rw [whole] at scanned
  rw [scanWhole_append follows whole]
  cases fraction : optionalPart ['.'] (scanFraction atEnd) w.2 with
  | error => simp [fraction, bind, Except.bind] at scanned
  | ok f =>
  cases exponent : optionalPart ['e', 'E'] (scanExponent atEnd) f.2 with
  | error => simp [fraction, exponent, bind, Except.bind] at scanned
  | ok x =>
  simp only [fraction, exponent, bind, Except.bind] at scanned ⊢
  cases scanned
  simp only [
    optionalPart_append (fun _ head => (apart head).1) (scanFraction_append follows) fraction,
    optionalPart_append (fun _ head => (apart head).2) (scanExponent_append follows) exponent]
  rfl

end Numeral

variable {n : Number} {negative : Bool}

/-- A number is read up to what follows it. -/
theorem scanNumber_append (follows : Follows rest)
    (scanned : scanNumber negative t = .ok (n, after)) :
    scanNumber negative (t ++ rest) = .ok (n, after ++ rest) := by
  unfold scanNumber at scanned ⊢
  cases inner : Numeral.scan .endInValue negative t with
  | error => rw [inner] at scanned; cases scanned
  | ok r =>
  rw [inner] at scanned
  rw [Numeral.scan_append follows inner]
  simp only [bind, Except.bind] at scanned ⊢
  cases value : r.1.value with
  | error => rw [value] at scanned; cases scanned
  | ok v =>
      rw [value] at scanned
      cases scanned
      rfl

/-! ### Integers -/

/-- The number that a text starts with, its sign included. -/
def readNumber : List Char → Except Stop (Number × List Char)
  | '-' :: t => scanNumber true t
  | t => scanNumber false t

/-- The number that some digits stand for, after others. -/
def ofDigits (significand : Nat) (digits : List Nat) : Nat :=
  digits.foldl (fun n d => n * 10 + d) significand

theorem le_ofDigits (s : Nat) (ds : List Nat) : s ≤ ofDigits s ds := by
  induction ds generalizing s with
  | nil => exact Nat.le_refl s
  | cons d ds ih => exact Nat.le_trans (by omega) (ih (s * 10 + d))

theorem ofDigits_digitsOf (n : Nat) : ofDigits 0 (digitsOf n) = n := by
  have read : Nat.ofDigitChars 10 (Nat.toDigits 10 n) 0 = n := Nat.ofDigitChars_ten_toDigits
  rw [Nat.ofDigitChars_eq_foldl] at read
  simpa only [ofDigits, digitsOf, List.foldl_map, Nat.mul_comm] using read

/-- The digits of a number that fits are all accumulated. -/
theorem accumulate_of_lt {s : Nat} {ds : List Nat} (fits : ofDigits s ds < UInt64.size) :
    Numeral.accumulate s ds = (ofDigits s ds, []) := by
  induction ds generalizing s with
  | nil => rfl
  | cons d ds ih =>
      have step : s * 10 + d < 2 ^ 64 := Nat.lt_of_le_of_lt (le_ofDigits _ ds) fits
      have next : Numeral.accumulate s (d :: ds) =
          if s * 10 + d < 2 ^ 64 then Numeral.accumulate (s * 10 + d) ds else (s, d :: ds) := rfl
      rw [next, if_pos step]
      exact ih fits

theorem scanWhole_toDigits {atEnd : FormFault} (n : Nat) :
    Numeral.scanWhole atEnd (Nat.toDigits 10 n) = .ok (digitsOf n, []) := by
  have head : digitsOf n = [n] ∨ (digitsOf n).head? ≠ some 0 := by
    rcases Nat.eq_zero_or_pos n with rfl | positive
    · exact .inl (digitsOf_of_lt (by decide))
    · exact .inr (head_digitsOf positive)
  unfold Numeral.scanWhole
  rw [takeDigits_toDigits]
  match digitsOf n, digitsOf_ne_nil n, head with
  | [d], _, _ => cases d <;> rfl
  | 0 :: _ :: _, _, .inr start => exact absurd rfl start
  | (d + 1) :: d' :: more, _, _ => rfl

/-- A natural number that fits is scanned as itself. -/
theorem scanNumber_toDigits (n : Nat) (fits : n < UInt64.size) :
    scanNumber negative (Nat.toDigits 10 n) = .ok (Numeral.integer negative n, []) := by
  have value : (Numeral.mk negative (digitsOf n) none none).value =
      .ok (Numeral.integer negative n) := by
    have read : Numeral.accumulate 0 (digitsOf n) = (ofDigits 0 (digitsOf n), []) :=
      accumulate_of_lt (by rwa [ofDigits_digitsOf])
    rw [ofDigits_digitsOf] at read
    simp only [Numeral.value, read]
    rfl
  have form : Numeral.scan .endInValue negative (Nat.toDigits 10 n) =
      .ok (⟨negative, digitsOf n, none, none⟩, []) := by
    rw [Numeral.scan_eq, scanWhole_toDigits]
    rfl
  rw [scanNumber, form]
  simp only [bind, Except.bind, value]

end Json

/-- A number that is read back from its text. -/
def Number.Legible (n : Number) : Prop := Json.readNumber (Json.renderNumber n) = .ok (n, [])

instance (n : Number) : Decidable n.Legible :=
  decidable_of_iff ((Json.readNumber (Json.renderNumber n)).toOption = some (n, [])) (by
    rw [Number.Legible]
    cases Json.readNumber (Json.renderNumber n) <;> simp [Except.toOption])

/-- A number that is not negative is written as its digits. -/
theorem Json.renderNumber_nat {i : WireInt} {n : Nat} (value : i.val = n) :
    renderNumber (.int i) = Nat.toDigits 10 n := by
  rw [renderNumber, value, Int.toString_eq_repr]
  exact Nat.toList_repr

/-- A negative number is written with a sign in front. -/
theorem Json.renderNumber_neg {i : WireInt} {n : Nat} (value : i.val = Int.negSucc n) :
    renderNumber (.int i) = '-' :: Nat.toDigits 10 (n + 1) := by
  rw [renderNumber, value, Int.toString_eq_repr, Int.repr, String.toList_append, Nat.toList_repr]
  rfl

/-- A number that begins with a digit has no sign. -/
theorem Json.readNumber_of_digit {c : Char} {t : List Char} (digit : c.isDigit = true) :
    readNumber (c :: t) = scanNumber false (c :: t) := by
  unfold readNumber
  split
  next heq =>
    cases heq
    cases digit
  next => rfl

theorem WireInt.ofInt?_val (i : WireInt) : ofInt? i.val = some i :=
  dif_pos ⟨i.lower, i.upper⟩

theorem Json.Numeral.integer_nat {i : WireInt} {n : Nat} (value : i.val = n) :
    integer false n = .int i := by
  have held : WireInt.ofInt? n = some i := value ▸ i.ofInt?_val
  simp only [integer, held]
  rfl

theorem Json.Numeral.integer_neg {i : WireInt} {n : Nat} (value : i.val = Int.negSucc n) :
    integer true (n + 1) = .int i := by
  have held : WireInt.ofInt? (-((n + 1 : Nat) : Int)) = some i := by
    have same : -((n + 1 : Nat) : Int) = i.val := value.symm
    rw [same, i.ofInt?_val]
  simp only [integer, held]
  rfl

/-- An integer is read back from its text. -/
theorem Number.legible_int (i : WireInt) : (Number.int i).Legible := by
  have lower := i.lower
  have upper := i.upper
  rw [Number.Legible]
  cases value : i.val with
  | ofNat n =>
      have fits : n < UInt64.size := by
        simp only [value, Int.ofNat_eq_natCast] at upper
        unfold UInt64.size
        omega
      have read : Json.scanNumber false (Nat.toDigits 10 n) = .ok (.int i, []) := by
        rw [Json.scanNumber_toDigits n fits, Json.Numeral.integer_nat value]
      rw [Json.renderNumber_nat value]
      cases digits : Nat.toDigits 10 n with
      | nil => exact absurd digits Nat.toDigits_ne_nil
      | cons c t =>
          have mem : c ∈ Nat.toDigits 10 n := by simp [digits]
          have digit := Nat.isDigit_of_mem_toDigits (by decide) (by decide) mem
          rw [Json.readNumber_of_digit digit, ← digits, read]
  | negSucc n =>
      have fits : n + 1 < UInt64.size := by
        unfold UInt64.size
        omega
      rw [Json.renderNumber_neg value, Json.readNumber, Json.scanNumber_toDigits (n + 1) fits,
        Json.Numeral.integer_neg value]

/-! ### Numbers in a document -/

namespace Json

variable {n : Number} {t rest : List Char} {depth fuel : Nat}

/-- A text that a number is read from starts with a minus or a digit. -/
theorem head_of_readNumber {r : Number × List Char} (read : readNumber t = .ok r) :
    (∃ t', t = '-' :: t' ∧ scanNumber true t' = .ok r) ∨
      ∃ c t', t = c :: t' ∧ (digit? c).isSome ∧ scanNumber false t = .ok r := by
  unfold readNumber at read
  split at read
  next t' => exact .inl ⟨t', rfl, read⟩
  next =>
    cases t with
    | nil => cases read
    | cons c t =>
        cases digit : digit? c with
        | some d => exact .inr ⟨c, t, rfl, by simp [digit], read⟩
        | none =>
            have none_ : takeDigits (c :: t) = ([], c :: t) := by simp only [takeDigits, digit]
            simp [scanNumber, Numeral.scan, Numeral.scanWhole, none_, bind, Except.bind] at read

theorem isSpace_of_digit {c : Char} (digit : (digit? c).isSome) : isSpace c = false := by
  cases space : isSpace c with
  | false => rfl
  | true =>
      simp only [isSpace, Bool.or_eq_true, decide_eq_true_eq] at space
      rcases space with ((rfl | rfl) | rfl) | rfl <;> cases digit

/-- A text that starts with a digit is read as a number. -/
theorem scanValue_of_digit {c : Char} (digit : (digit? c).isSome) :
    scanValue depth (fuel + 1) (c :: t) =
      (scanNumber false (c :: t)).map fun r => (.num r.1, r.2) := by
  have skip : skipSpace (c :: t) = c :: t := List.dropWhile_cons_of_neg (by
    rw [isSpace_of_digit digit]
    decide)
  rw [scanValue, skip]
  split <;> rename_i heq <;> cases heq
  any_goals cases digit
  rw [if_pos digit]
  cases scanNumber false (c :: t) <;> rfl

/-- A number that is read back from its text alone is read back in a document. -/
theorem scanValue_number (legible : n.Legible) (follows : Follows rest) :
    scanValue depth (fuel + 1) (renderNumber n ++ rest) = .ok (.num n, rest) := by
  rcases head_of_readNumber legible with ⟨t, text, read⟩ | ⟨c, t, text, digit, read⟩
  · have scanned := scanNumber_append follows read
    have skip : skipSpace ('-' :: (t ++ rest)) = '-' :: (t ++ rest) := rfl
    rw [text, List.cons_append, scanValue, skip]
    simp only [scanned]
    rfl
  · have scanned := scanNumber_append follows read
    rw [text, List.cons_append] at scanned
    rw [text, List.cons_append, scanValue_of_digit digit, scanned]
    rfl

end Json

end SessionBroker
