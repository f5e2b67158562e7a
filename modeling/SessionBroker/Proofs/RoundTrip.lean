import SessionBroker.Proofs.WireForm

/-!
Values on the wire have one form.

Main statement: `decode_encode_decode`. What a document decodes to can be written, and what is
written decodes to the same again. Parameters that are missing, null or an empty object are
the same parameters.
-/

namespace SessionBroker

open Json

namespace Envelope

variable {F : Format Json} {absent : String → DataFault} {find look : String → Option Json}

/-- The parameters of an envelope, from what stands under their key. -/
def paramsOf (found : Option Json) : Json := (found.map normal).getD .null

/-- A request is made of an identifier, a method, and parameters that may be missing. -/
theorem build_fields : (fields F).build absent find = (do
    let id ← (Fields.required "id" F.text).build absent find
    let method ← (Fields.required "method" F.text).build absent find
    return ⟨id, method, paramsOf (find "params")⟩) := by
  have params : (Fields.defaulted "params" Json.null free).build absent find =
      .ok (paramsOf (find "params")) := by
    cases found : find "params" <;> simp [Fields.defaulted, found, paramsOf, free]
  change (do
    let rest ← (do
      let whole ← ((Fields.required "id" F.text).build absent find).map Envelope.mk
      let method ← (Fields.required "method" F.text).build absent find
      return whole method)
    let params ← (Fields.defaulted "params" Json.null free).build absent find
    return rest params) = _
  rw [params]
  cases (Fields.required "id" F.text).build absent find with
  | error fault => rfl
  | ok id => cases (Fields.required "method" F.text).build absent find <;> rfl

/-- Of its parameters a request only sees what `presentParams` leaves of them. -/
theorem open_build_congr (id : find "id" = look "id") (method : find "method" = look "method")
    (params : RequestData.presentParams (paramsOf (find "params")) =
      RequestData.presentParams (paramsOf (look "params"))) :
    ((fields F).build absent find >>= open?) = ((fields F).build absent look >>= open?) := by
  have sameId : (Fields.required "id" F.text).build absent find =
      (Fields.required "id" F.text).build absent look := by simp only [Fields.required, id]
  have sameMethod : (Fields.required "method" F.text).build absent find =
      (Fields.required "method" F.text).build absent look := by simp only [Fields.required, method]
  rw [build_fields, build_fields, sameId, sameMethod]
  cases (Fields.required "id" F.text).build absent look with
  | error fault => rfl
  | ok id =>
      cases (Fields.required "method" F.text).build absent look with
      | error fault => rfl
      | ok method =>
          change open? ⟨id, method, _⟩ = open? ⟨id, method, _⟩
          simp only [open?, RequestData.ofParts, params]

end Envelope

namespace Request

/-- Parameters that are null or an empty object count as an empty object. -/
theorem presentParams_of_empty {params : Json} (empty : params = .null ∨ params = .obj []) :
    RequestData.presentParams params.normal = .obj [] := by
  rcases empty with rfl | rfl <;> rfl

/-- How an object decodes: its members are checked, then the envelope is built and opened. -/
theorem decode_of_members {v : Json} {members : List (String × Json)}
    (whole : v.normal = .obj members) : decode v = (do
      (Envelope.fields valueFormat).checkMembers valueFormat.ignored? [] members
      (Envelope.fields valueFormat).build .missingField (Fields.lookup members) >>=
        Envelope.open?) := by
  rw [decode, whole]
  exact bind_assoc _ _ _

/-- Parameters under their key that are null or an empty object can as well be missing. -/
theorem decode_insert_params {front back : List (String × Json)} {params : Json}
    (unnamed : ∀ m ∈ front ++ back, m.1 ≠ "params")
    (empty : params = .null ∨ params = .obj []) :
    decode (.obj (front ++ ("params", params) :: back)) = decode (.obj (front ++ back)) := by
  obtain ⟨before, after, normalBefore, normalAfter, low, high, rfl, rfl, below, above⟩ :=
    normal_insert params unnamed
  have lowOthers : ∀ m ∈ low, m.1 ≠ "params" := fun m mem => (below m mem).ne
  have highOthers : ∀ m ∈ high, m.1 ≠ "params" := fun m mem => (above m mem).ne'
  have others : ∀ m ∈ low ++ high, m.1 ≠ "params" := fun m mem =>
    (List.mem_append.mp mem).elim (lowOthers m) (highOthers m)
  have checks : (Envelope.fields valueFormat).checkMembers valueFormat.ignored? []
      (low ++ ("params", params.normal) :: high) =
        (Envelope.fields valueFormat).checkMembers valueFormat.ignored? [] (low ++ high) :=
    have known : (Envelope.fields valueFormat).check? "params" = some _ := rfl
    Fields.checkMembers_insert known rfl lowOthers highOthers List.not_mem_nil
  rw [decode_of_members normalBefore, decode_of_members normalAfter, checks]
  congr 1
  funext _
  refine Envelope.open_build_congr (Fields.lookup_insert_of_ne (by decide))
    (Fields.lookup_insert_of_ne (by decide)) ?_
  rw [Fields.lookup_insert_self lowOthers, Fields.lookup_eq_none others]
  simp only [Envelope.paramsOf, Option.map_some, Option.getD_some, normal_normal,
    presentParams_of_empty empty]
  rfl

/-- How an array of at most three items decodes: they stand for the fields in their order. -/
theorem decode_of_items {items : List Json} (short : items.length ≤ 3) : decode (.arr items) =
    ((Envelope.fields valueFormat).build
      (fun name => .invalidLength (["id", "method", "params"].idxOf name)
        (Envelope.shape.withElements 3))
      (Fields.lookup (["id", "method", "params"].zip (items.map normal))) >>= Envelope.open?) := by
  have full : ¬ (Envelope.fields valueFormat).names.length < (items.map normal).length := by
    rw [List.length_map]
    exact not_lt.mpr short
  rw [decode, normal, normalItems_eq_map]
  change ((Envelope.fields valueFormat).ofItems Envelope.shape .fewer (items.map normal) >>=
    Envelope.open?) = _
  simp only [Fields.ofItems, if_neg full, bind_assoc]
  rfl

/-- A third item that is null or an empty object can as well be missing. -/
theorem decode_items_params (id method : Json) {params : Json}
    (empty : params = .null ∨ params = .obj []) :
    decode (.arr [id, method, params]) = decode (.arr [id, method]) := by
  rw [decode_of_items (by simp), decode_of_items (by simp)]
  refine Envelope.open_build_congr (by simp) (by simp) ?_
  simp only [List.map_cons, List.map_nil, List.zip_cons_cons, Fields.lookup_cons, String.reduceEq,
    if_true, if_false, List.zip_nil_right, Fields.lookup_nil, Envelope.paramsOf, Option.map_some,
    Option.getD_some, normal_normal, presentParams_of_empty empty]
  rfl

end Request

/-- What a document decodes to can be written, and what is written decodes to the same and is
written in the same way again. -/
def Stable {α : Type} (decode : Json → Except DataFault α) (encode : α → Except DataFault Json) :
    Prop :=
  ∀ v a, decode v = .ok a → ∃ j, encode a = .ok j ∧ decode j = .ok a ∧
    (decode j >>= encode) = .ok j

/-- Requests, replies and events have one form on the wire, and a request whose parameters are
missing, null or an empty object is one request. -/
theorem decode_encode_decode :
    Stable Request.decode Request.encode ∧
      Stable Response.decode (fun r => .ok r.encode) ∧
      Stable Event.decode (fun e => .ok e.encode) ∧
      (∀ (front back : List (String × Json)), (∀ m ∈ front ++ back, m.1 ≠ "params") →
        Request.decode (.obj (front ++ ("params", .null) :: back)) =
            Request.decode (.obj (front ++ back)) ∧
          Request.decode (.obj (front ++ ("params", .obj []) :: back)) =
            Request.decode (.obj (front ++ back))) ∧
      ∀ id method : Json,
        Request.decode (.arr [id, method, .null]) = Request.decode (.arr [id, method]) ∧
          Request.decode (.arr [id, method, .obj []]) = Request.decode (.arr [id, method]) := by
  refine ⟨fun v r decoded => ?_, fun v r decoded => ?_, fun v e decoded => ?_,
    fun front back unnamed => ?_, fun id method => ?_⟩
  · obtain ⟨j, encoded, same⟩ :=
      Request.settles_of_canonical (Request.canonical_of_decode decoded)
    exact ⟨j, encoded, same, by rw [same]; exact encoded⟩
  · have same := Response.decode_encode (Response.canonical_of_decodeIn rfl decoded)
    exact ⟨r.encode, rfl, same, by rw [same]; rfl⟩
  · have same := Event.decode_encode (Event.canonical_of_decode decoded)
    exact ⟨e.encode, rfl, same, by rw [same]; rfl⟩
  · exact ⟨Request.decode_insert_params unnamed (.inl rfl),
      Request.decode_insert_params unnamed (.inr rfl)⟩
  · exact ⟨Request.decode_items_params id method (.inl rfl),
      Request.decode_items_params id method (.inr rfl)⟩

/-- An unknown method with parameters in disorder, and a handshake without any. -/
theorem decode_encode_decode_of_unknown :
    let v : Json := .obj [("method", .str "reindex"), ("extra", .null), ("id", .str "7"),
      ("params", .obj [("b", .bool true), ("a", .null)])]
    let r : Request := ⟨"7", .unknown "reindex" (.obj [("a", .null), ("b", .bool true)])⟩
    Request.decode v = .ok r ∧
      (∃ j, r.encode = .ok j ∧ Request.decode j = .ok r ∧
        (Request.decode j >>= Request.encode) = .ok j) ∧
      Request.decode (.obj ([("id", .str "1")] ++ ("params", .null) ::
        [("method", .str "handshake")])) =
        Request.decode (.obj [("id", .str "1"), ("method", .str "handshake")]) :=
  have read : Request.decode (.obj [("method", .str "reindex"), ("extra", .null),
      ("id", .str "7"), ("params", .obj [("b", .bool true), ("a", .null)])]) =
      .ok ⟨"7", .unknown "reindex" (.obj [("a", .null), ("b", .bool true)])⟩ := by decide +kernel
  ⟨read, decode_encode_decode.1 _ _ read,
    (decode_encode_decode.2.2.2.1 [("id", .str "1")] [("method", .str "handshake")]
      (by decide)).1⟩

end SessionBroker
