import SessionBroker.Document.Format

/-!
The fields of a record.

`Fields V α` reads an `α` from named documents of type `V`. A record is written as a map,
whose members are taken in their order with unknown keys passed over, or as a sequence of
its fields in declaration order.
-/

namespace SessionBroker

/-- The fields of a record of type `α`, in declaration order. -/
structure Fields (V α : Type) where
  /-- The name of each field, with a check of the document under it. -/
  checks : List (String × (V → Except DataFault Unit))
  /-- The record from a look-up of its fields; `absent` is the fault of a missing one. -/
  build : (absent : String → DataFault) → (find : String → Option V) → Except DataFault α

namespace Fields

variable {V α β : Type}

def none (a : α) : Fields V α := ⟨[], fun _ _ => .ok a⟩

/-- Applies what the first fields give to what the others give. -/
def ap (f : Fields V (α → β)) (a : Fields V α) : Fields V β where
  checks := f.checks ++ a.checks
  build absent find := do
    let g ← f.build absent find
    let x ← a.build absent find
    return g x

instance : Pure (Fields V) := ⟨none⟩
instance : Seq (Fields V) := ⟨fun f a => ap f (a ())⟩
instance : Functor (Fields V) where
  map f a := { checks := a.checks, build := fun absent find => (a.build absent find).map f }

def required (name : String) (decode : Decoder V α) : Fields V α where
  checks := [(name, fun v => (decode v).map fun _ => ())]
  build absent find :=
    match find name with
    | some v => decode v
    | .none => .error (absent name)

/-- A field with a value for when it is missing. -/
def defaulted (name : String) (fallback : α) (decode : Decoder V α) : Fields V α where
  checks := [(name, fun v => (decode v).map fun _ => ())]
  build _ find :=
    match find name with
    | some v => decode v
    | .none => .ok fallback

def names (fields : Fields V α) : List String := fields.checks.map (·.1)

def check? (fields : Fields V α) (name : String) : Option (V → Except DataFault Unit) :=
  (fields.checks.find? (·.1 == name)).map (·.2)

/-- Checks the members in their order: the first bad or repeated known field is the fault.
`ignored?` is the fault of a document under an unknown key. -/
def checkMembers (fields : Fields V α) (ignored? : V → Option DataFault) :
    (seen : List String) → List (String × V) → Except DataFault Unit
  | _, [] => .ok ()
  | seen, (name, v) :: rest =>
    match fields.check? name with
    | .none =>
      match ignored? v with
      | some fault => .error fault
      | .none => fields.checkMembers ignored? seen rest
    | some check =>
      if seen.contains name then .error (.duplicateField name)
      else do
        check v
        fields.checkMembers ignored? (name :: seen) rest

def lookup (members : List (String × V)) (name : String) : Option V :=
  (members.find? (·.1 == name)).map (·.2)

def ofMembers (fields : Fields V α) (ignored? : V → Option DataFault)
    (members : List (String × V)) : Except DataFault α := do
  fields.checkMembers ignored? [] members
  fields.build .missingField (lookup members)

def ofItems (fields : Fields V α) (shape : Shape) (tail : TailRule) (items : List V) :
    Except DataFault α := do
  let names := fields.names
  let count := names.length
  let absent name := .invalidLength (names.idxOf name) (shape.withElements count)
  let a ← fields.build absent (lookup (names.zip items))
  if count < items.length then
    match tail with
    | .fewer => .error (.invalidLength items.length .fewerElements)
    | .exact => .error (.invalidLength items.length (.elements count))
    | .ignore => .ok a
  else .ok a

end Fields

/-- A record, as a map or as a sequence of its fields. -/
def Format.record {V α : Type} (F : Format V) (shape : Shape) (fields : Fields V α) :
    Decoder V α := fun v =>
  match F.view v with
  | .map members => fields.ofMembers F.ignored? members
  | .sequence items => fields.ofItems shape F.tail items
  | _ => F.mismatch v shape

end SessionBroker
