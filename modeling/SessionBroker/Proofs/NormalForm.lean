import Mathlib.Data.List.Induction
import Mathlib.Data.String.Basic
import SessionBroker.Json.Basic

/-!
The value of a JSON document.

`Json.normal` sorts the members of every object by key and keeps the last of each key. Main
statements: `normal_normal`, a value is its own value, and `normal_insert`, a member under a
key of its own takes its place among the others, wherever it stands in the document.
-/

namespace SessionBroker.Json

/-- The members are in the order of their keys, no key twice. -/
def Sorted (members : List (String × Json)) : Prop := members.Pairwise (·.1 < ·.1)

variable {key : String} {value : Json} {members low high : List (String × Json)}

/-! ### One member -/

/-- A member of the longer list is the new one or an old one. -/
theorem mem_insertMember {m : String × Json} (mem : m ∈ insertMember key value members) :
    m = (key, value) ∨ m ∈ members := by
  induction members with
  | nil => exact .inl (List.mem_singleton.mp mem)
  | cons first rest ih =>
      obtain ⟨k, v⟩ := first
      unfold insertMember at mem
      split at mem
      · exact List.mem_cons.mp mem
      · split at mem
        · exact (List.mem_cons.mp mem).imp_right (.tail _)
        · rcases List.mem_cons.mp mem with rfl | mem
          · exact .inr (.head _)
          · exact (ih mem).imp_right (.tail _)

theorem Sorted.insertMember (sorted : Sorted members) :
    Sorted (insertMember key value members) := by
  induction members with
  | nil => exact List.pairwise_singleton _ _
  | cons first rest ih =>
      obtain ⟨k, v⟩ := first
      obtain ⟨above, sortedRest⟩ := List.pairwise_cons.mp sorted
      unfold Json.insertMember
      split
      · rename_i less
        refine List.pairwise_cons.mpr ⟨fun m mem => ?_, sorted⟩
        rcases List.mem_cons.mp mem with rfl | mem
        · exact less
        · exact less.trans (above m mem)
      · split
        · rename_i same
          subst same
          exact List.pairwise_cons.mpr ⟨above, sortedRest⟩
        · rename_i notLess other
          refine List.pairwise_cons.mpr ⟨fun m mem => ?_, ih sortedRest⟩
          rcases mem_insertMember mem with rfl | mem
          · exact lt_of_le_of_ne (not_lt.mp notLess) (Ne.symm other)
          · exact above m mem

/-- A member whose key is above those of some members comes after them. -/
theorem insertMember_append (below : ∀ m ∈ low, m.1 < key) :
    insertMember key value (low ++ high) = low ++ insertMember key value high := by
  induction low with
  | nil => rfl
  | cons first rest ih =>
      obtain ⟨k, v⟩ := first
      have less : k < key := below _ (.head _)
      rw [List.cons_append, insertMember, if_neg less.asymm, if_neg less.ne',
        ih fun m mem => below m (.tail _ mem), List.cons_append]

/-- A member whose key is below those of some members comes before them. -/
theorem insertMember_of_above (above : ∀ m ∈ high, key < m.1) :
    insertMember key value high = (key, value) :: high := by
  cases high with
  | nil => rfl
  | cons first rest => exact if_pos (above first (.head _))

/-- A member whose key is below those of `high` does not come near these. -/
theorem insertMember_append_of_above (above : ∀ m ∈ high, key < m.1) :
    insertMember key value (low ++ high) = insertMember key value low ++ high := by
  induction low with
  | nil => exact insertMember_of_above above
  | cons first rest ih =>
      obtain ⟨k, v⟩ := first
      simp only [List.cons_append, insertMember, ih]
      split
      · rfl
      · split <;> rfl

/-! ### All members -/

theorem sortMembers_concat (members : List (String × Json)) (m : String × Json) :
    sortMembers (members ++ [m]) = insertMember m.1 m.2 (sortMembers members) := by
  simp [sortMembers]

theorem sorted_sortMembers (members : List (String × Json)) : Sorted (sortMembers members) := by
  induction members using List.reverseRecOn with
  | nil => exact .nil
  | append_singleton members m ih =>
      rw [sortMembers_concat]
      exact ih.insertMember

theorem mem_of_mem_sortMembers {m : String × Json} (mem : m ∈ sortMembers members) :
    m ∈ members := by
  induction members using List.reverseRecOn with
  | nil => cases mem
  | append_singleton members last ih =>
      rw [sortMembers_concat] at mem
      rcases mem_insertMember mem with rfl | mem
      · exact List.mem_append_right _ (.head _)
      · exact List.mem_append_left _ (ih mem)

theorem sortMembers_of_sorted (sorted : Sorted members) : sortMembers members = members := by
  induction members using List.reverseRecOn with
  | nil => rfl
  | append_singleton members m ih =>
      obtain ⟨sortedRest, -, below⟩ := List.pairwise_append.mp sorted
      have last : insertMember m.1 m.2 (members ++ []) = members ++ insertMember m.1 m.2 [] :=
        insertMember_append fun n mem => below n mem m (.head _)
      rw [List.append_nil] at last
      rw [sortMembers_concat, ih sortedRest, last, insertMember]

/-! ### Look-up by key -/

/-- A member is found under its key after another was inserted, unless that has the same key. -/
theorem find?_insertMember (name : String) :
    (insertMember key value members).find? (·.1 == name) =
      if key = name then some (key, value) else members.find? (·.1 == name) := by
  induction members with
  | nil => by_cases same : key = name <;> simp [insertMember, same]
  | cons first rest ih =>
      obtain ⟨k, v⟩ := first
      unfold insertMember
      split
      · by_cases same : key = name <;> simp [List.find?_cons, same]
      · split
        · rename_i replaced
          subst replaced
          by_cases same : key = name <;> simp [same]
        · rename_i other
          by_cases here : k = name
          · subst here
            simp [other]
          · simp [here, ih]

/-- Under each key stands its last member. -/
theorem find?_sortMembers (members : List (String × Json)) (name : String) :
    (sortMembers members).find? (·.1 == name) = members.reverse.find? (·.1 == name) := by
  induction members using List.reverseRecOn with
  | nil => rfl
  | append_singleton members m ih =>
      obtain ⟨k, v⟩ := m
      rw [sortMembers_concat, find?_insertMember, ih, List.reverse_concat]
      by_cases same : k = name <;> simp [same]

/-! ### The value of a value -/

/-- Members whose values are in normal form are left as they are. -/
theorem normalMembers_eq_self (values : ∀ m ∈ members, m.2.normal = m.2) :
    normalMembers members = members := by
  induction members with
  | nil => rfl
  | cons first rest ih =>
      obtain ⟨k, v⟩ := first
      rw [normalMembers, values _ (.head _), ih fun m mem => values m (.tail _ mem)]

/-- An object in order whose members are values is a value. -/
theorem normal_of_sorted (sorted : Sorted members) (values : ∀ m ∈ members, m.2.normal = m.2) :
    (obj members).normal = obj members := by
  rw [normal, normalMembers_eq_self values, sortMembers_of_sorted sorted]

/-- The values of members are brought into normal form one by one. -/
theorem normalMembers_eq_map (members : List (String × Json)) :
    normalMembers members = members.map fun m => (m.1, m.2.normal) := by
  induction members with
  | nil => rfl
  | cons m rest ih =>
      obtain ⟨k, v⟩ := m
      rw [normalMembers, ih, List.map_cons]

/-- What the value of an object has under a key is the value of its last member there. -/
theorem member?_normal_obj (members : List (String × Json)) (name : String) :
    (obj members).normal.member? name =
      (members.reverse.find? (·.1 == name)).map (·.2.normal) := by
  rw [normal, member?, find?_sortMembers, normalMembers_eq_map, ← List.map_reverse,
    List.find?_map, Option.map_map]
  rfl

theorem normalItems_eq_map (items : List Json) : normalItems items = items.map normal := by
  induction items with
  | nil => rfl
  | cons v rest ih => rw [normalItems, ih, List.map_cons]

/-- A list of values is a value. -/
theorem normal_of_items {items : List Json} (values : ∀ v ∈ items, v.normal = v) :
    (arr items).normal = arr items := by
  rw [normal, normalItems_eq_map, List.map_congr_left values, List.map_id']

mutual

/-- A value is its own value. -/
theorem normal_normal : ∀ v : Json, v.normal.normal = v.normal
  | .null | .bool _ | .num _ | .str _ => rfl
  | .arr items => by rw [normal, normal_of_items (normal_of_mem_items items)]
  | .obj members => by
      rw [normal, normal_of_sorted (sorted_sortMembers _) fun m mem =>
        normal_of_mem_members members m (mem_of_mem_sortMembers mem)]

theorem normal_of_mem_items : ∀ items : List Json, ∀ v ∈ normalItems items, v.normal = v
  | [], _, mem => nomatch mem
  | w :: rest, v, mem => by
      rcases List.mem_cons.mp mem with rfl | mem
      · exact normal_normal w
      · exact normal_of_mem_items rest v mem

theorem normal_of_mem_members : ∀ members : List (String × Json),
    ∀ m ∈ normalMembers members, m.2.normal = m.2
  | [], _, mem => nomatch mem
  | (k, w) :: rest, m, mem => by
      rcases List.mem_cons.mp mem with rfl | mem
      · exact normal_normal w
      · exact normal_of_mem_members rest m mem

end

/-! ### A member more -/

/-- Among members without a key, some others have that key added in its place. -/
def Inserted (key : String) (value : Json) (before after : List (String × Json)) : Prop :=
  ∃ low high, before = low ++ high ∧ after = low ++ (key, value) :: high ∧
    (∀ m ∈ low, m.1 < key) ∧ ∀ m ∈ high, key < m.1

/-- Inserting a new key into sorted members puts it in somewhere and moves nothing else. -/
theorem inserted_of_sorted (sorted : Sorted members) (missing : ∀ m ∈ members, m.1 ≠ key) :
    Inserted key value members (insertMember key value members) := by
  induction members with
  | nil => exact ⟨[], [], rfl, rfl, nofun, nofun⟩
  | cons first rest ih =>
      obtain ⟨k, v⟩ := first
      obtain ⟨above, sortedRest⟩ := List.pairwise_cons.mp sorted
      rcases lt_or_gt_of_ne (missing _ (.head _)) with less | greater
      · obtain ⟨low, high, same, inserted, below, higher⟩ :=
          ih sortedRest fun m mem => missing m (.tail _ mem)
        refine ⟨(k, v) :: low, high, by rw [same]; rfl, ?_, ?_, higher⟩
        · rw [insertMember, if_neg less.asymm, if_neg less.ne', inserted]
          rfl
        · exact fun m mem => (List.mem_cons.mp mem).elim (fun h => h ▸ less) (below m)
      · refine ⟨[], (k, v) :: rest, rfl, if_pos greater, nofun, fun m mem => ?_⟩
        rcases List.mem_cons.mp mem with rfl | mem
        · exact greater
        · exact greater.trans (above m mem)

/-- Members of other keys can be added afterwards. -/
theorem Inserted.insertMember {before after : List (String × Json)}
    (inserted : Inserted key value before after) {m : String × Json} (other : m.1 ≠ key) :
    Inserted key value (insertMember m.1 m.2 before) (insertMember m.1 m.2 after) := by
  obtain ⟨low, high, rfl, rfl, below, above⟩ := inserted
  rcases lt_or_gt_of_ne other with less | greater
  · refine ⟨Json.insertMember m.1 m.2 low, high, ?_, ?_, fun n mem => ?_, above⟩
    · exact insertMember_append_of_above fun n mem => less.trans (above n mem)
    · refine insertMember_append_of_above fun n mem => ?_
      exact (List.mem_cons.mp mem).elim (fun h => h ▸ less) fun mem => less.trans (above n mem)
    · exact (mem_insertMember mem).elim (fun h => h ▸ less) (below n)
  · refine ⟨low, Json.insertMember m.1 m.2 high, ?_, ?_, below, fun n mem => ?_⟩
    · exact insertMember_append fun n mem => (below n mem).trans greater
    · rw [insertMember_append fun n mem => (below n mem).trans greater]
      have after_ : Json.insertMember m.1 m.2 ([(key, value)] ++ high) =
          [(key, value)] ++ Json.insertMember m.1 m.2 high :=
        insertMember_append fun n mem => List.mem_singleton.mp mem ▸ greater
      exact congrArg (low ++ ·) after_
    · exact (mem_insertMember mem).elim (fun h => h ▸ greater) (above n)

theorem normalMembers_append (members more : List (String × Json)) :
    normalMembers (members ++ more) = normalMembers members ++ normalMembers more := by
  induction members with
  | nil => rfl
  | cons first rest ih =>
      obtain ⟨k, v⟩ := first
      simp only [List.cons_append, normalMembers, ih]

theorem keys_normalMembers (members : List (String × Json)) :
    (normalMembers members).map (·.1) = members.map (·.1) := by
  induction members with
  | nil => rfl
  | cons first rest ih =>
      obtain ⟨k, v⟩ := first
      simp only [normalMembers, List.map_cons, ih]

theorem keys_ne_normalMembers (missing : ∀ m ∈ members, m.1 ≠ key) :
    ∀ m ∈ normalMembers members, m.1 ≠ key := by
  have none : key ∉ (normalMembers members).map (·.1) := by
    rw [keys_normalMembers]
    exact fun mem => (List.mem_map.mp mem).elim fun m h => missing m h.1 h.2
  exact fun m mem same => none (List.mem_map.mpr ⟨m, mem, same⟩)

/-- A member under a key of its own takes its place among the others. -/
theorem inserted_sortMembers {front back : List (String × Json)}
    (missing : ∀ m ∈ front ++ back, m.1 ≠ key) :
    Inserted key value (sortMembers (front ++ back))
      (sortMembers (front ++ (key, value) :: back)) := by
  induction back using List.reverseRecOn with
  | nil =>
      rw [List.append_nil, sortMembers_concat]
      refine inserted_of_sorted (sorted_sortMembers _) fun m mem => ?_
      exact missing m (List.mem_append_left _ (mem_of_mem_sortMembers mem))
  | append_singleton back m ih =>
      rw [← List.append_assoc, ← List.cons_append, ← List.append_assoc, sortMembers_concat,
        sortMembers_concat]
      refine (ih fun n mem => missing n ?_).insertMember (missing m (by simp))
      simp only [List.mem_append] at mem ⊢
      exact mem.imp_right .inl

/-- Wherever a member under a key of its own stands in an object, in the value it has its place
among the others. -/
theorem normal_insert (value : Json) {front back : List (String × Json)}
    (missing : ∀ m ∈ front ++ back, m.1 ≠ key) :
    ∃ before after, (obj (front ++ back)).normal = obj before ∧
      (obj (front ++ (key, value) :: back)).normal = obj after ∧
      Inserted key value.normal before after := by
  refine ⟨_, _, rfl, rfl, ?_⟩
  rw [normalMembers_append, normalMembers_append, normalMembers]
  refine inserted_sortMembers ?_
  rw [← normalMembers_append]
  exact keys_ne_normalMembers missing

end SessionBroker.Json
