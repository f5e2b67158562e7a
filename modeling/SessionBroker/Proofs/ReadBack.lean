import SessionBroker.Proofs.TextForm
import SessionBroker.Proofs.WireForm
import SessionBroker.Wire.Text

/-!
What a client makes of the events it is sent.

The members of an event stand in its text in the order in which it wrote them, the kind first; a
reader takes them one after the other and builds the event from a look-up. Main statements:
`Event.parse_renderChars`, the text of an event is read as the event received, and
`event_read_back`, which is the event sent unless that is a reply whose result is null.
-/

namespace SessionBroker

namespace Event

open Json

/-! ### The text of an event -/

variable {depth fuel : Nat} {rest t : List Char} {kind : EventKind} {found : List (String × Json)}

/-- The name of a kind of event is read back. -/
theorem scanKind_renderString (kind : EventKind) :
    scanKind (renderString kind.name ++ rest) = .ok (kind, rest) := by
  have quote (t : List Char) : skipSpace ('"' :: t) = '"' :: t := rfl
  rw [renderString_append, scanKind, scanText, quote]
  simp only [scanString_renderString, bind, Except.bind, EventKind.variantNamed_name]

/-- After the kind every member is kept as it is read. -/
theorem scanMembers_step {key : String} {v : Json} (untagged : key ≠ EventKind.tag)
    (value : scanDocument depth t = .ok (v, rest)) :
    scanMembers depth (fuel + 1) false (some kind) found (',' :: (renderString key ++ ':' :: t)) =
      scanMembers depth fuel false (some kind) (found ++ [(key, v)]) rest := by
  have comma (t : List Char) : skipSpace (',' :: t) = ',' :: t := rfl
  have colon : scanColon (':' :: t) = .ok t := rfl
  rw [scanMembers, comma]
  split
  next heq => cases heq
  next heq => simp at heq
  next => simp only [memberStart_later, bind, Except.bind, if_neg untagged, colon, value]

/-- The text of some members has more characters than there are members. -/
theorem length_lt_renderMembers (members : List (String × Json)) :
    members.length < (renderMembers members).length := by
  induction members with
  | nil => exact Nat.one_pos
  | cons m members ih =>
      obtain ⟨key, v⟩ := m
      simp only [renderMembers, List.length_cons, List.length_append]
      omega

/-- The members after the kind are kept in the order of the text. -/
theorem scanMembers_renderMembers {members : List (String × Json)}
    (untagged : ∀ m ∈ members, m.1 ≠ EventKind.tag) (deep : nestingMembers members ≤ depth)
    (legible : LegibleFloats (floatsOfMembers members)) (enough : members.length < fuel) :
    scanMembers depth fuel false (some kind) found (renderMembers members ++ rest) =
      .ok ((kind, .obj (found ++ members)), rest) := by
  induction members generalizing fuel found with
  | nil =>
      obtain ⟨fuel, rfl⟩ : ∃ f, fuel = f + 1 := ⟨fuel - 1, by simp at enough; omega⟩
      rw [List.append_nil]
      rfl
  | cons m members ih =>
      obtain ⟨key, v⟩ := m
      obtain ⟨first, others⟩ := List.forall_mem_cons.mp untagged
      obtain ⟨fuel, rfl⟩ : ∃ f, fuel = f + 1 := ⟨fuel - 1, by simp at enough; omega⟩
      rw [nestingMembers, Nat.max_le] at deep
      rw [floatsOfMembers] at legible
      have value : scanDocument depth (renderChars v ++ (renderMembers members ++ rest)) =
          .ok (v, renderMembers members ++ rest) :=
        scanDocument_renderChars deep.1 legible.left (follows_renderMembers members)
      rw [renderMembers, List.cons_append, List.append_assoc, List.cons_append, List.append_assoc,
        scanMembers_step first value, ih others deep.2 legible.right (Nat.succ_lt_succ_iff.mp enough),
        List.append_assoc, List.singleton_append]

/-- The first member is the kind. -/
theorem scanMembers_kind :
    scanMembers depth (fuel + 1) true none []
        (renderString EventKind.tag ++ ':' :: (renderString kind.name ++ rest)) =
      scanMembers depth fuel false (some kind) [] rest := by
  have colon (t : List Char) : scanColon (':' :: t) = .ok t := rfl
  have quote (t : List Char) : skipSpace ('"' :: t) = '"' :: t := rfl
  have start (t : List Char) :
      memberStart true ('"' :: (EventKind.tag.toList.flatMap escapeChar ++ '"' :: t)) =
        .ok (EventKind.tag, t) := scanString_renderString EventKind.tag
  rw [renderString_append, scanMembers, quote]
  split
  next heq => cases heq
  next heq => simp at heq
  next =>
    simp only [start, bind, Except.bind, if_true, Option.isSome_none, Bool.false_eq_true,
      if_false, colon, scanKind_renderString]

/-- An event whose text is not too deep is scanned as its kind and its content. -/
theorem scan_renderChars {e : Event} (deep : nesting e.encode ≤ depth)
    (legible : LegibleFloats (floats e.encode)) :
    scan depth (renderChars e.encode) = .ok ((e.kind, .obj e.content), []) := by
  rw [encode_eq] at deep legible ⊢
  cases depth with
  | zero => cases deep
  | succ depth =>
  simp only [members, nesting, nestingMembers, Nat.succ_le_succ_iff, Nat.max_le] at deep
  simp only [members, floats, floatsOfMembers, List.nil_append] at legible
  have text : renderChars (.obj e.members) = '\x7b' :: (renderString EventKind.tag ++
      ':' :: (renderString e.kind.name ++ (renderMembers e.content ++ []))) := by
    rw [List.append_nil]
    rfl
  have enough (t u : List Char) :
      e.content.length < 3 * (t ++ ':' :: (u ++ (renderMembers e.content ++ []))).length + 2 := by
    have := length_lt_renderMembers e.content
    simp only [List.length_append, List.length_cons]
    omega
  have brace (t : List Char) : skipSpace ('\x7b' :: t) = '\x7b' :: t := rfl
  rw [text]
  unfold scan
  rw [brace]
  exact scanMembers_kind.trans
    (scanMembers_renderMembers e.untagged_content deep.2 legible (enough _ _))

/-- The text of an event is read as the event received. -/
theorem parse_renderChars {e : Event} (values : e.Values) (deep : nesting e.encode ≤ depthLimit)
    (legible : LegibleFloats (floats e.encode)) :
    Event.parse (renderChars e.encode) = .ok e.received := by
  have content : decodeContent e.kind (.obj e.content) = .ok e.received :=
    decodeContent_of_lookup values e.keys_content fun _ => rfl
  have ended : scanEnd [] = .ok () := rfl
  rw [Event.parse, readText, scan_renderChars deep legible]
  simp only [Except.mapError, bind, Except.bind, content, ended]
  rfl

/-! ### What is not read back -/

/-- An event is received as it was sent unless it is a reply whose result is null. -/
theorem received_eq_self_iff {e : Event} :
    e.received = e ↔ ∀ r, e = response r → r.result ≠ some .null := by
  cases e with
  | response r =>
      simp only [received, response.injEq, Response.received_eq_self_iff]
      exact ⟨fun present s same => same ▸ present, fun present => present r rfl⟩
  | _ => exact ⟨fun _ => nofun, fun _ => rfl⟩

/-- A reply whose result is null is received without a result. -/
theorem received_of_null {r : Response} (null : r.result = some .null) :
    (response r).received = response { r with result := .none } := by
  simp only [received, Response.received, null]
  rfl

end Event

/-- Whatever its free documents are, the document of an event is read as the event that was
sent, and so is its text, if that nests no deeper than a reader follows and its doubles are read
back from their own texts. The one exception is a reply whose result is null: it is read as a
reply without a result. -/
theorem event_read_back (e : Event) (values : e.Values) :
    (Event.decode e.encode = .ok e.received ∧
      (Json.nesting e.encode ≤ Json.depthLimit → Json.LegibleFloats (Json.floats e.encode) →
        Event.parse e.encode.render.toList = .ok e.received)) ∧
    (e.received = e ↔ ∀ r, e = .response r → r.result ≠ some .null) ∧
    ∀ r, e = .response r → r.result = some .null →
      e.received = .response { r with result := none } := by
  refine ⟨⟨Event.decode_encode_of_values values, fun deep legible => ?_⟩,
    Event.received_eq_self_iff, ?_⟩
  · rw [Json.render, String.toList_ofList]
    exact Event.parse_renderChars values deep legible
  · rintro r rfl null
    exact Event.received_of_null null

/-- A reply with documents of several kinds in its result. -/
def Event.hits : Event :=
  .response (.success "7" (.obj [("found", .arr [.null, .bool true]), ("text", .str "a\n\"b")]))

/-- A reply with hits is read back from its document and from its text. -/
theorem event_read_back_of_hits :
    Event.hits.Values ∧ Event.decode Event.hits.encode = .ok Event.hits ∧
      Event.parse Event.hits.encode.render.toList = .ok Event.hits := by
  have values : Event.hits.Values := fun v mem => by
    cases mem
    rfl
  obtain ⟨⟨decoded, parsed⟩, kept, -⟩ := event_read_back Event.hits values
  have same : Event.hits.received = Event.hits := kept.mpr fun r isReply => by
    cases isReply
    nofun
  rw [same] at decoded parsed
  exact ⟨values, decoded, parsed (by decide) (by decide)⟩

/-- The reply of a request that succeeded with null is not read back: it comes without result
and without error. -/
theorem null_result_lost :
    Event.decode (Event.response (.success "1" .null)).encode = .ok (.response ⟨"1", none, none⟩) ∧
    Event.parse (Event.response (.success "1" .null)).encode.render.toList =
      .ok (.response ⟨"1", none, none⟩) ∧
    Event.response ⟨"1", none, none⟩ ≠ Event.response (.success "1" .null) := by
  refine ⟨rfl, by decide +kernel, by decide⟩

end SessionBroker
