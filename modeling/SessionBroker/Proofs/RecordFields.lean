import Mathlib.Data.List.Basic
import SessionBroker.Document.Fields

/-!
What a record reader gives, whatever the document.

`Fields.Sound` is a property of every record that some fields can give; it follows the way in
which the fields are put together. `ofMembers_insert` tells what one member more changes: a
document under a key whose check it passes is only seen by the look-up of that key.
-/

namespace SessionBroker

/-! ### Results -/

section Results

variable {ε α β : Type}

/-- What a sequence gives was given by its parts. -/
theorem ok_of_bind {x : Except ε α} {f : α → Except ε β} {b : β} (given : (x >>= f) = .ok b) :
    ∃ a, x = .ok a ∧ f a = .ok b := by
  cases x with
  | error fault => cases given
  | ok a => exact ⟨a, rfl, given⟩

theorem bind_eq_ok {x : Except ε α} {f : α → Except ε β} {b : β} :
    (x >>= f) = .ok b ↔ ∃ a, x = .ok a ∧ f a = .ok b := by
  constructor
  · exact ok_of_bind
  · rintro ⟨a, rfl, given⟩
    exact given

theorem ok_of_map {x : Except ε α} {f : α → β} {b : β} (given : x.map f = .ok b) :
    ∃ a, x = .ok a ∧ f a = b := by
  cases x with
  | error fault => cases given
  | ok a => exact ⟨a, rfl, Except.ok.inj given⟩

end Results

namespace Fields

variable {V α β : Type} {P : α → Prop} {Q : β → Prop} {fields : Fields V α} {name : String}

/-! ### Properties of every record -/

/-- The records that the fields give from a look-up have a property. -/
def Gives (fields : Fields V α) (find : String → Option V) (P : α → Prop) : Prop :=
  ∀ absent a, fields.build absent find = .ok a → P a

section Gives

variable {find : String → Option V}

/-- What holds of a record carries over to what is made of it. -/
theorem Gives.map {f : α → β} (gives : fields.Gives find P) (carries : ∀ a, P a → Q (f a)) :
    (f <$> fields).Gives find Q := by
  intro absent b built
  obtain ⟨a, given, rfl⟩ := ok_of_map built
  exact carries a (gives absent a given)

/-- What holds of two records holds of both together. -/
theorem Gives.seq {f : Fields V (α → β)} (left : f.Gives find fun g => ∀ a, P a → Q (g a))
    (right : fields.Gives find P) : (f <*> fields).Gives find Q := by
  intro absent b built
  obtain ⟨g, first, built⟩ := ok_of_bind built
  obtain ⟨a, second, built⟩ := ok_of_bind built
  cases built
  exact left absent g first a (right absent a second)

/-- A field with a default has what it is given, or the default. -/
theorem gives_defaulted {fallback : α} {decode : Decoder V α}
    (given : ∀ v a, find name = some v → decode v = .ok a → P a)
    (missing : find name = Option.none → P fallback) :
    (defaulted name fallback decode).Gives find P := by
  intro absent a built
  simp only [defaulted] at built
  split at built
  · rename_i v found
    exact given v a found built
  · rename_i found
    cases built
    exact missing found

/-- A field that is not found has its default. -/
theorem gives_default {fallback : α} {decode : Decoder V α} :
    (defaulted name fallback decode).Gives find fun a =>
      find name = Option.none → a = fallback := by
  refine gives_defaulted (fun v a found _ missing => ?_) fun _ _ => rfl
  rw [found] at missing
  cases missing

end Gives

/-- Every record that the fields give has a property. -/
def Sound (fields : Fields V α) (P : α → Prop) : Prop :=
  ∀ absent find a, fields.build absent find = .ok a → P a

theorem sound_any (fields : Fields V α) : fields.Sound fun _ => True := fun _ _ _ _ => trivial

theorem Sound.gives (sound : fields.Sound P) (find : String → Option V) : fields.Gives find P :=
  fun absent a => sound absent find a

/-- What holds of a record however it is given carries over to what is made of it. -/
theorem Sound.map {f : α → β} (sound : fields.Sound P) (carries : ∀ a, P a → Q (f a)) :
    (f <$> fields).Sound Q :=
  fun absent find => (sound.gives find).map carries absent

theorem Sound.seq {f : Fields V (α → β)} (left : f.Sound fun g => ∀ a, P a → Q (g a))
    (right : fields.Sound P) : (f <*> fields).Sound Q :=
  fun absent find => (left.gives find).seq (right.gives find) absent

theorem sound_required {decode : Decoder V α} (values : ∀ v a, decode v = .ok a → P a) :
    (required name decode).Sound P := by
  intro absent find a built
  simp only [required] at built
  split at built
  · exact values _ a built
  · cases built

/-- A field with a default has what its decoder gives, or the default. -/
theorem sound_defaulted {fallback : α} {decode : Decoder V α} (default : P fallback)
    (values : ∀ v a, decode v = .ok a → P a) : (defaulted name fallback decode).Sound P :=
  fun absent _ => gives_defaulted (fun v a _ => values v a) (fun _ => default) absent

/-- What holds of the fields of a record holds of the record that is decoded. -/
theorem Sound.record {F : Format V} {shape : Shape} {v : V} {a : α} (sound : fields.Sound P)
    (decoded : F.record shape fields v = .ok a) : P a := by
  unfold Format.record at decoded
  split at decoded
  · obtain ⟨_, -, built⟩ := ok_of_bind decoded
    exact sound _ _ a built
  · obtain ⟨b, built, decoded⟩ := ok_of_bind decoded
    have same : b = a := by
      split at decoded
      · split at decoded <;> cases decoded
        rfl
      · exact Except.ok.inj decoded
    exact same ▸ sound _ _ b built
  · cases decoded

/-! ### What a document is read as -/

/-- The look-up gives a record: the documents found pass their checks. -/
def Reads (fields : Fields V α) (find : String → Option V) (a : α) : Prop :=
  (∀ c ∈ fields.checks, ∀ v ∈ find c.1, c.2 v = .ok ()) ∧
    ∀ absent, fields.build absent find = .ok a

section Reads

variable {find : String → Option V} {a : α} {v : V}

/-- A required field reads what is found under its name. -/
theorem reads_required {decode : Decoder V α} (found : find name = some v)
    (decoded : decode v = .ok a) : (required name decode).Reads find a := by
  refine ⟨fun c mem w there => ?_, fun absent => by simp only [required, found, decoded]⟩
  obtain rfl := List.mem_singleton.mp mem
  cases (found.symm.trans there : some v = some w)
  simp only [decoded, Except.map]

/-- A field with a default reads what is found under its name. -/
theorem reads_defaulted {fallback : α} {decode : Decoder V α} (found : find name = some v)
    (decoded : decode v = .ok a) : (defaulted name fallback decode).Reads find a := by
  refine ⟨(reads_required found decoded).1, fun absent => by simp only [defaulted, found, decoded]⟩

/-- Where nothing is found a field reads its default. -/
theorem reads_default {fallback : α} {decode : Decoder V α} (missing : find name = Option.none) :
    (defaulted name fallback decode).Reads find fallback := by
  refine ⟨fun c mem w there => ?_, fun absent => by simp only [defaulted, missing]⟩
  obtain rfl := List.mem_singleton.mp mem
  cases (missing.symm.trans there : Option.none = some w)

/-- An optional field reads what was written for it, nothing included. -/
theorem reads_optional {F : Format V} {decode : Decoder V α} {o : Option α} (write : α → V)
    (found : find name = o.map write)
    (decoded : ∀ a ∈ o, F.view (write a) ≠ .null ∧ decode (write a) = .ok a) :
    (defaulted name Option.none (F.optional decode)).Reads find o := by
  cases o with
  | none => exact reads_default found
  | some a =>
      obtain ⟨present, read⟩ := decoded a rfl
      refine reads_defaulted found ?_
      unfold Format.optional
      split
      · rename_i null
        exact absurd null present
      · rw [read, Except.map]

/-- What a record reads as, what is made of it reads as. -/
theorem Reads.map (reads : fields.Reads find a) (f : α → β) : (f <$> fields).Reads find (f a) :=
  ⟨reads.1, fun absent => by simp only [Functor.map, reads.2 absent, Except.map]⟩

/-- Two records read together as what they read apart. -/
theorem Reads.seq {f : Fields V (α → β)} {g : α → β} (left : f.Reads find g)
    (right : fields.Reads find a) : (f <*> fields).Reads find (g a) := by
  refine ⟨fun c mem => ?_, fun absent => ?_⟩
  · exact (List.mem_append.mp mem).elim (left.1 c) (right.1 c)
  · change (do
      let g ← f.build absent find
      let a ← fields.build absent find
      return g a) = Except.ok (g a)
    rw [left.2 absent, right.2 absent]
    rfl

end Reads

/-! ### Members -/

/-- No field is given twice. Keys that name no field may be repeated. -/
def Distinct (fields : Fields V α) (members : List (String × V)) : Prop :=
  members.Pairwise fun m n => m.1 ∈ fields.names → m.1 ≠ n.1

theorem distinct_of_nodup (fields : Fields V α) {members : List (String × V)}
    (keys : (members.map (·.1)).Nodup) : fields.Distinct members := by
  refine List.Pairwise.imp ?_ (List.pairwise_map.mp keys)
  intro m n differ _
  exact differ

/-- There is a check for the names of the fields and no others. -/
theorem check?_eq_none : fields.check? name = Option.none ↔ name ∉ fields.names := by
  rw [check?, Option.map_eq_none_iff, List.find?_eq_none, names, List.mem_map]
  constructor
  · rintro other ⟨c, mem, rfl⟩
    exact other c mem (beq_self_eq_true _)
  · intro other c mem same
    exact other ⟨c, mem, beq_iff_eq.mp same⟩

/-- What passes the check of the members: each of them, none given twice. -/
theorem checkMembers_eq_ok {members : List (String × V)} {seen : List String} :
    fields.checkMembers (fun _ => Option.none) seen members = .ok () ↔
      (∀ m ∈ members, ∀ check ∈ fields.check? m.1, check m.2 = .ok ()) ∧
        fields.Distinct members ∧ ∀ m ∈ members, m.1 ∈ fields.names → m.1 ∉ seen := by
  induction members generalizing seen with
  | nil => simp [checkMembers, Distinct]
  | cons m rest ih =>
      obtain ⟨k, v⟩ := m
      rw [checkMembers, List.forall_mem_cons, List.forall_mem_cons, Distinct, List.pairwise_cons]
      cases known : fields.check? k with
      | none =>
          have unnamed : k ∉ fields.names := check?_eq_none.mp known
          simp only [ih, Distinct]
          tauto
      | some check =>
          have named : k ∈ fields.names := by
            by_contra unnamed
            rw [check?_eq_none.mpr unnamed] at known
            cases known
          by_cases again : k ∈ seen
          · simp [again, named]
          · simp only [List.contains_iff_mem, again, if_false, bind_eq_ok, ih, Distinct]
            constructor
            · rintro ⟨_, first, passes, apart, unseen⟩
              refine ⟨⟨?_, passes⟩, ⟨?_, apart⟩, fun _ => not_false, ?_⟩
              · rintro _ ⟨⟩
                exact first
              · rintro n mem - rfl
                exact unseen n mem named (.head _)
              · intro m mem known seen
                exact unseen m mem known (.tail _ seen)
            · rintro ⟨⟨first, passes⟩, ⟨differ, apart⟩, -, unseen⟩
              refine ⟨(), first check rfl, passes, apart, fun m mem known => ?_⟩
              rintro (_ | ⟨_, seen⟩)
              · exact differ m mem named rfl
              · exact unseen m mem known seen

@[simp] theorem lookup_nil (name : String) : lookup ([] : List (String × V)) name = Option.none :=
  rfl

/-- The first member of a key counts. -/
@[simp] theorem lookup_cons (key : String) (v : V) (members : List (String × V)) (name : String) :
    lookup ((key, v) :: members) name = if key = name then some v else lookup members name := by
  by_cases same : key = name <;> simp [lookup, same]

theorem lookup_of_mem {members : List (String × V)} (keys : (members.map (·.1)).Nodup)
    {m : String × V} (mem : m ∈ members) : lookup members m.1 = some m.2 := by
  induction members with
  | nil => cases mem
  | cons first rest ih =>
      obtain ⟨missing, keysRest⟩ := List.nodup_cons.mp keys
      obtain ⟨k, v⟩ := first
      rcases List.mem_cons.mp mem with rfl | mem
      · rw [lookup_cons, if_pos rfl]
      · have other : k ≠ m.1 := fun same => missing (List.mem_map.mpr ⟨m, mem, same.symm⟩)
        rw [lookup_cons, if_neg other, ih keysRest mem]

/-- A member of a known key is found, when no field is given twice. -/
theorem lookup_of_distinct {members : List (String × V)} (distinct : fields.Distinct members)
    {m : String × V} (mem : m ∈ members) (known : m.1 ∈ fields.names) :
    lookup members m.1 = some m.2 := by
  induction members with
  | nil => cases mem
  | cons first rest ih =>
      obtain ⟨k, v⟩ := first
      obtain ⟨differ, distinct⟩ := List.pairwise_cons.mp distinct
      rcases List.mem_cons.mp mem with rfl | mem
      · rw [lookup_cons, if_pos rfl]
      · have other : k ≠ m.1 := by
          intro same
          exact differ m mem (by rw [same]; exact known) same
        rw [lookup_cons, if_neg other, ih distinct mem]

/-- A key that no member has is not found. -/
theorem lookup_eq_none {members : List (String × V)} (others : ∀ m ∈ members, m.1 ≠ name) :
    lookup members name = Option.none := by
  have missing : members.find? (·.1 == name) = Option.none := by simpa using others
  simp [lookup, missing]

/-- Members of different keys are found from either end. -/
theorem lookup_reverse {members : List (String × V)} (keys : (members.map (·.1)).Nodup) :
    lookup members.reverse name = lookup members name := by
  have keysReversed : (members.reverse.map (·.1)).Nodup := by
    rw [List.map_reverse]
    exact List.pairwise_reverse.mpr (keys.imp Ne.symm)
  by_cases there : ∃ m ∈ members, m.1 = name
  · obtain ⟨m, mem, rfl⟩ := there
    rw [lookup_of_mem keys mem, lookup_of_mem keysReversed (List.mem_reverse.mpr mem)]
  · have others : ∀ m ∈ members, m.1 ≠ name := fun m mem same => there ⟨m, mem, same⟩
    rw [lookup_eq_none others,
      lookup_eq_none fun m mem => others m (List.mem_reverse.mp mem)]

/-- Of two lists of members the first has the say. -/
theorem lookup_append (low high : List (String × V)) (name : String) :
    lookup (low ++ high) name = (lookup low name).or (lookup high name) := by
  rw [lookup, List.find?_append, Option.map_or, lookup, lookup]

theorem lookup_map (f : String → V → V) (members : List (String × V)) (name : String) :
    lookup (members.map fun m => (m.1, f m.1 m.2)) name = (lookup members name).map (f name) := by
  induction members with
  | nil => rfl
  | cons m rest ih =>
      obtain ⟨k, v⟩ := m
      rw [List.map_cons, lookup_cons, lookup_cons, ih]
      split
      · rename_i same
        rw [same]
        rfl
      · rfl

/-- Leaving members of other keys out changes nothing about a key. -/
theorem lookup_filter (p : String → Bool) (members : List (String × V)) (name : String) :
    lookup (members.filter (p ·.1)) name =
      if p name = true then lookup members name else Option.none := by
  induction members with
  | nil => simp
  | cons m rest ih =>
      obtain ⟨k, v⟩ := m
      by_cases same : k = name
      · subst same
        by_cases kept : p k = true <;> simp [kept, ih]
      · by_cases kept : p k = true <;> simp [kept, ih, same]

/-- Taking out one key leaves what stands under the others. -/
theorem lookup_filter_ne (members : List (String × V)) (key : String) :
    lookup (members.filter (·.1 != key)) name =
      if key = name then Option.none else lookup members name := by
  rw [lookup_filter (· != key)]
  by_cases same : key = name
  · simp [same]
  · rw [if_neg same, if_pos (bne_iff_ne.mpr (Ne.symm same))]

theorem mem_checks_of_check? {check : V → Except DataFault Unit}
    (known : fields.check? name = some check) : (name, check) ∈ fields.checks := by
  obtain ⟨c, found, rfl⟩ := Option.map_eq_some_iff.mp known
  have same : c.1 = name := by simpa using List.find?_some found
  exact same ▸ List.mem_of_find?_eq_some found

theorem mem_names_of_check? {check : V → Except DataFault Unit}
    (known : fields.check? name = some check) : name ∈ fields.names :=
  List.mem_map_of_mem (mem_checks_of_check? known)

/-- A map that gives no field twice is read as the record that its look-up gives. -/
theorem Reads.record_of_distinct {F : Format V} {shape : Shape} {v : V} {a : α}
    {members : List (String × V)} (reads : fields.Reads (lookup members) a)
    (distinct : fields.Distinct members) (seen : F.view v = .map members)
    (unread : F.ignored? = fun _ => Option.none) : F.record shape fields v = .ok a := by
  have passes : ∀ m ∈ members, ∀ check ∈ fields.check? m.1, check m.2 = .ok () := by
    intro m mem check known
    have found := lookup_of_distinct distinct mem (mem_names_of_check? known)
    exact reads.1 (m.1, check) (mem_checks_of_check? known) m.2 found
  have checked := checkMembers_eq_ok.mpr ⟨passes, distinct, fun _ _ _ => List.not_mem_nil⟩
  simp only [Format.record, seen, ofMembers, unread, bind, Except.bind, checked, reads.2]

/-- A map of different keys is read as the record that its look-up gives. -/
theorem Reads.record {F : Format V} {shape : Shape} {v : V} {a : α}
    {members : List (String × V)} (reads : fields.Reads (lookup members) a)
    (keys : (members.map (·.1)).Nodup) (seen : F.view v = .map members)
    (unread : F.ignored? = fun _ => Option.none) : F.record shape fields v = .ok a :=
  reads.record_of_distinct (distinct_of_nodup fields keys) seen unread

/-- What a map that is read gives: the record of its look-up, no field given twice. -/
theorem of_record {F : Format V} {shape : Shape} {v : V} {a : α} {members : List (String × V)}
    (seen : F.view v = .map members) (unread : F.ignored? = fun _ => Option.none)
    (decoded : F.record shape fields v = .ok a) :
    fields.Distinct members ∧ fields.build .missingField (lookup members) = .ok a := by
  simp only [Format.record, seen, ofMembers, unread] at decoded
  obtain ⟨_, checked, built⟩ := ok_of_bind decoded
  exact ⟨(checkMembers_eq_ok.mp checked).2.1, built⟩

/-! ### One member more -/

section Insert

variable {ignored? : V → Option DataFault} {value : V} {low high : List (String × V)}

/-- The check of members only looks at which of their keys were seen before. -/
theorem checkMembers_congr {members : List (String × V)} (others : ∀ m ∈ members, m.1 ≠ name)
    {seen seen' : List String} (agree : ∀ k, k ≠ name → (k ∈ seen ↔ k ∈ seen')) :
    fields.checkMembers ignored? seen members = fields.checkMembers ignored? seen' members := by
  induction members generalizing seen seen' with
  | nil => rfl
  | cons m rest ih =>
      obtain ⟨k, v⟩ := m
      have same : seen.contains k = seen'.contains k := by
        rw [Bool.eq_iff_iff, List.contains_iff_mem, List.contains_iff_mem]
        exact agree k (others _ (.head _))
      have othersRest : ∀ m ∈ rest, m.1 ≠ name := fun m mem => others m (.tail _ mem)
      have agreeAfter : ∀ j, j ≠ name → (j ∈ k :: seen ↔ j ∈ k :: seen') := fun j other => by
        simp [agree j other]
      simp only [checkMembers, same, ih othersRest agree, ih othersRest agreeAfter]

/-- A member of another key than its neighbours, whose check it passes, does not change what
the check of the members says. -/
theorem checkMembers_insert {check : V → Except DataFault Unit}
    (known : fields.check? name = some check) (passes : check value = .ok ())
    (lowOthers : ∀ m ∈ low, m.1 ≠ name) (highOthers : ∀ m ∈ high, m.1 ≠ name)
    {seen : List String} (unseen : name ∉ seen) :
    fields.checkMembers ignored? seen (low ++ (name, value) :: high) =
      fields.checkMembers ignored? seen (low ++ high) := by
  induction low generalizing seen with
  | nil =>
      have later : fields.checkMembers ignored? (name :: seen) high =
          fields.checkMembers ignored? seen high :=
        checkMembers_congr highOthers fun k other => by simp [other]
      simp [checkMembers, known, passes, unseen, later, bind, Except.bind]
  | cons m rest ih =>
      obtain ⟨k, v⟩ := m
      have othersRest : ∀ m ∈ rest, m.1 ≠ name := fun m mem => lowOthers m (.tail _ mem)
      have other : k ≠ name := lowOthers _ (.head _)
      have unseenAfter : name ∉ k :: seen := by simp [unseen, other.symm]
      simp only [List.cons_append, checkMembers, ih othersRest unseen, ih othersRest unseenAfter]

/-- A member put in changes nothing about other keys. -/
theorem lookup_insert_of_ne {key : String} (other : key ≠ name) :
    lookup (low ++ (name, value) :: high) key = lookup (low ++ high) key := by
  simp [lookup, List.find?_append, other.symm]

/-- A member put in is found if no member of its key is in front of it. -/
theorem lookup_insert_self (lowOthers : ∀ m ∈ low, m.1 ≠ name) :
    lookup (low ++ (name, value) :: high) name = some value := by
  have below : low.find? (·.1 == name) = Option.none := by simpa using lowOthers
  simp [lookup, List.find?_append, below]

end Insert

end Fields

end SessionBroker
