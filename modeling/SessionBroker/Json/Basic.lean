import SessionBroker.Number.Binary64

/-!
JSON documents.

An object keeps its members in the order of the text, repetitions included, because a
reader of records can tell them apart. `Json.normal` is the value of a document: members
sorted by key, the last of a repeated key kept.
-/

namespace SessionBroker

/-- An integer that a document holds exactly: one of 64 bits, signed or unsigned. -/
structure WireInt where
  val : Int
  lower : -9223372036854775808 ≤ val
  upper : val < 18446744073709551616
  deriving DecidableEq

instance : Repr WireInt := ⟨fun n p => reprPrec n.val p⟩

inductive Number where
  | int (n : WireInt)
  | float (x : Binary64)
  deriving DecidableEq, Repr

inductive Json where
  | null
  | bool (b : Bool)
  | num (n : Number)
  | str (s : String)
  | arr (items : List Json)
  | obj (members : List (String × Json))
  deriving Repr

namespace WireInt

def ofUInt64 (n : UInt64) : WireInt :=
  ⟨n.toNat, by have := n.toNat_lt; omega, by have := n.toNat_lt; omega⟩

def ofUInt32 (n : UInt32) : WireInt :=
  ⟨n.toNat, by have := n.toNat_lt; omega, by have := n.toNat_lt; omega⟩

def ofInt32 (n : Int32) : WireInt :=
  ⟨n.toInt, by have := n.le_toInt; omega, by have := n.toInt_lt; omega⟩

/-- The integer, when a document can hold it. -/
def ofInt? (n : Int) : Option WireInt :=
  if h : -9223372036854775808 ≤ n ∧ n < 18446744073709551616 then some ⟨n, h.1, h.2⟩ else none

end WireInt

namespace Json

instance : Inhabited Json := ⟨.null⟩

def ofUInt64 (n : UInt64) : Json := .num (.int (.ofUInt64 n))

def ofUInt32 (n : UInt32) : Json := .num (.int (.ofUInt32 n))

def ofInt32 (n : Int32) : Json := .num (.int (.ofInt32 n))

/-! ### Equality -/

mutual

/-- Whether two documents are the same, members in order. -/
def beq : Json → Json → Bool
  | .null, .null => true
  | .bool a, .bool b => a == b
  | .num a, .num b => a == b
  | .str a, .str b => a == b
  | .arr a, .arr b => beqItems a b
  | .obj a, .obj b => beqMembers a b
  | _, _ => false

def beqItems : List Json → List Json → Bool
  | [], [] => true
  | a :: as, b :: bs => beq a b && beqItems as bs
  | _, _ => false

def beqMembers : List (String × Json) → List (String × Json) → Bool
  | [], [] => true
  | (j, a) :: as, (k, b) :: bs => j == k && beq a b && beqMembers as bs
  | _, _ => false

end

mutual

theorem eq_of_beq : ∀ {a b : Json}, beq a b = true → a = b
  | .null, b, h => by cases b <;> simp_all [beq]
  | .bool _, b, h => by cases b <;> simp_all [beq]
  | .num _, b, h => by cases b <;> simp_all [beq]
  | .str _, b, h => by cases b <;> simp_all [beq]
  | .arr a, b, h => by
    cases b with
    | arr b => simp only [beq] at h; rw [eq_of_beqItems h]
    | _ => simp [beq] at h
  | .obj a, b, h => by
    cases b with
    | obj b => simp only [beq] at h; rw [eq_of_beqMembers h]
    | _ => simp [beq] at h

theorem eq_of_beqItems : ∀ {a b : List Json}, beqItems a b = true → a = b
  | [], b, h => by cases b <;> simp_all [beqItems]
  | x :: xs, b, h => by
    cases b with
    | nil => simp [beqItems] at h
    | cons y ys =>
      simp only [beqItems, Bool.and_eq_true] at h
      rw [eq_of_beq h.1, eq_of_beqItems h.2]

theorem eq_of_beqMembers : ∀ {a b : List (String × Json)}, beqMembers a b = true → a = b
  | [], b, h => by cases b <;> simp_all [beqMembers]
  | (j, x) :: xs, b, h => by
    cases b with
    | nil => simp [beqMembers] at h
    | cons y ys =>
      obtain ⟨k, y⟩ := y
      simp only [beqMembers, Bool.and_eq_true, beq_iff_eq] at h
      rw [h.1.1, eq_of_beq h.1.2, eq_of_beqMembers h.2]

end

mutual

theorem beq_refl : ∀ a : Json, beq a a = true
  | .null | .bool _ | .num _ | .str _ => by simp [beq]
  | .arr a => by simp only [beq]; exact beqItems_refl a
  | .obj a => by simp only [beq]; exact beqMembers_refl a

theorem beqItems_refl : ∀ a : List Json, beqItems a a = true
  | [] => rfl
  | x :: xs => by simp only [beqItems, beq_refl x, beqItems_refl xs, Bool.and_self]

theorem beqMembers_refl : ∀ a : List (String × Json), beqMembers a a = true
  | [] => rfl
  | (_, x) :: xs => by simp [beqMembers, beq_refl x, beqMembers_refl xs]

end

instance : DecidableEq Json := fun a b =>
  decidable_of_iff (beq a b = true) ⟨eq_of_beq, fun h => h ▸ beq_refl a⟩

/-! ### Normal form -/

/-- Puts a member in its place among members sorted by key, instead of one of its key. -/
def insertMember (key : String) (value : Json) : List (String × Json) → List (String × Json)
  | [] => [(key, value)]
  | (k, v) :: rest =>
    if key < k then (key, value) :: (k, v) :: rest
    else if key = k then (key, value) :: rest
    else (k, v) :: insertMember key value rest

/-- The members sorted by key, the last of each key. -/
def sortMembers (members : List (String × Json)) : List (String × Json) :=
  members.foldl (fun sorted m => insertMember m.1 m.2 sorted) []

mutual

/-- The document as a value: every object sorted by key, the last of a repeated key kept. -/
def normal : Json → Json
  | .arr items => .arr (normalItems items)
  | .obj members => .obj (sortMembers (normalMembers members))
  | v => v

def normalItems : List Json → List Json
  | [] => []
  | v :: rest => normal v :: normalItems rest

def normalMembers : List (String × Json) → List (String × Json)
  | [] => []
  | (k, v) :: rest => (k, normal v) :: normalMembers rest

end

/-- The member of a key, the first one. -/
def member? (key : String) : Json → Option Json
  | .obj members => (members.find? (·.1 == key)).map (·.2)
  | _ => none

def optionalMember {α : Type} (key : String) (encode : α → Json) :
    Option α → List (String × Json)
  | none => []
  | some a => [(key, encode a)]

end Json

end SessionBroker
