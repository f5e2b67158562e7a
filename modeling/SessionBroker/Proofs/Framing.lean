import SessionBroker.Proofs.Lines
import SessionBroker.Proofs.Server
import SessionBroker.Proofs.TextForm

/-!
What the server writes, cut at line feeds.

The text of an event has no control character, so no line feed but the one that ends its line;
and it is read back as the document of the event. `Transport.Writes` ties what is written to
what the server has taken from the session, and every move keeps it. Main statement:
`output_is_one_line_per_event`.
-/

namespace SessionBroker

namespace Transport

/-! ### Lines -/

/-- The bytes of the line of an event, without its end. -/
def lineBytes (e : Event) : List UInt8 := utf8 (lineOf e)

theorem lineOf_toList (e : Event) : (lineOf e).toList = Json.renderChars e.encode :=
  String.toList_ofList

/-- No control character stands in the line of an event, whatever texts it carries. -/
theorem plain_lineOf (e : Event) : Json.Plain (lineOf e).toList := by
  rw [lineOf_toList]
  exact Json.plain_renderChars _

/-- A line has no control character, so neither a line feed nor a carriage return. -/
theorem not_mem_lineBytes (e : Event) {b : UInt8} (control : b.toNat < 32) : b ∉ lineBytes e := by
  intro mem
  obtain ⟨c, here, same⟩ := mem_of_mem_utf8 mem (by omega)
  have plain := plain_lineOf e c here
  omega

theorem frame_cons (e : Event) (es : List Event) :
    frame (e :: es) = lineBytes e ++ lineFeed :: frame es := by
  simp [frame, lineBytes, utf8]

/-- Cut at its line feeds the output is one line for each event, and nothing behind the last. -/
theorem splitOn_frame (es : List Event) :
    (frame es).splitOn lineFeed = es.map lineBytes ++ [[]] := by
  induction es with
  | nil => rfl
  | cons e es ih =>
      have unbroken : lineFeed ∉ lineBytes e := not_mem_lineBytes e (by decide)
      rw [frame_cons, List.splitOn_append_cons_self, List.splitOn_eq_singleton unbroken, ih]
      rfl

/-! ### What has been written -/

variable {t u : Transport}

/-- What has been written is what the server has taken from the session, but for the one event
that it could not write. A server that has ended has taken all there was, unless the session
was cancelled. -/
structure Writes (t : Transport) : Prop where
  sound : t.session.client.Sound
  isOpen : t.serverEnded = false → t.session.client.isOpen = true
  written : ∃ lost, t.written ++ lost = t.session.client.read.map (·.event) ∧
    (lost = [] ∨ t.server = .ended true ∧ t.session.cancelled = true ∧ lost.length = 1)
  drained : t.serverEnded = true → t.session.cancelled = false →
    t.session.client.isOpen = false ∧ t.session.client.Drained

/-- What happens in the session while the server waits does not change what was written. -/
theorem Writes.session (writes : t.Writes) {s : Session} (spared : t.session.Spared s) :
    Writes { t with session := s } := by
  have read : s.client.read = t.session.client.read := by
    obtain ⟨more, accepted⟩ := spared.accepted
    rw [Mailbox.read, Mailbox.read, ← accepted, spared.taken,
      List.take_append_of_le_length writes.sound]
  refine ⟨?_, ?_, ?_, ?_⟩
  · rw [Mailbox.Sound, spared.taken]
    exact Nat.le_trans writes.sound spared.accepted.length_le
  · exact fun serving => spared.isOpen.trans (writes.isOpen serving)
  · obtain ⟨lost, written, none_ | ⟨ended, cancelled, one⟩⟩ := writes.written
    · exact ⟨lost, by rw [read, written], .inl none_⟩
    · exact ⟨lost, by rw [read, written], .inr ⟨ended, spared.cancelled cancelled, one⟩⟩
  · intro ended calm
    have before : t.session.cancelled = false := by
      cases was : t.session.cancelled with
      | false => rfl
      | true => rw [spared.cancelled was] at calm; cases calm
    obtain ⟨isClosed, drained⟩ := writes.drained ended before
    refine ⟨spared.isOpen.trans isClosed, ?_⟩
    rw [Mailbox.Drained, spared.taken, spared.closed isClosed]
    exact drained

/-- A server that runs has written all that it has read of a client that is still there. -/
theorem Writes.of_running {t : Transport} (sound : t.session.client.Sound)
    (isOpen : t.session.client.isOpen = true)
    (written : t.written = t.session.client.read.map (·.event))
    (running : t.serverEnded = false) : t.Writes where
  sound := sound
  isOpen _ := isOpen
  written := ⟨[], by rw [List.append_nil, written], .inl rfl⟩
  drained ended := by rw [running] at ended; cases ended

/-- A server that runs has written all that it has taken. -/
theorem Writes.of_serving (writes : t.Writes) (running : t.serverEnded = false) :
    t.written = t.session.client.read.map (·.event) := by
  obtain ⟨lost, written, rfl | ⟨ended, -⟩⟩ := writes.written
  · rwa [List.append_nil] at written
  · simp [serverEnded, ended] at running

theorem serverEnded_serving (server : t.server = .serving) : t.serverEnded = false := by
  simp [serverEnded, server]

theorem serverEnded_forwarding {m : BrokerMessage} (server : t.server = .forwarding m) :
    t.serverEnded = false := by
  simp [serverEnded, server]

/-- A move of the server writes what it takes from the session. -/
theorem Serves.writes (h : Serves t u) (writes : t.Writes) : u.Writes := by
  cases h with
  | told server | refused server =>
      have running := serverEnded_forwarding server
      exact .of_running writes.sound (writes.isOpen running) (writes.of_serving running) rfl
  | stopped server =>
      have running := serverEnded_serving server
      exact .of_running writes.sound (writes.isOpen running) (writes.of_serving running) rfl
  | read server _ line =>
      have running := serverEnded_serving server
      refine .of_running writes.sound (writes.isOpen running) (writes.of_serving running) ?_
      cases messageOfLine? _ <;> rfl
  | wrote server _ taken =>
      have running := serverEnded_serving server
      refine .of_running (Mailbox.sound_next taken)
        ((Mailbox.isOpen_next taken).trans (writes.isOpen running)) ?_ running
      rw [Mailbox.read_next taken, List.map_append, ← writes.of_serving running]
      rfl
  | cancelled server cancelled =>
      have running := serverEnded_serving server
      refine ⟨writes.sound, by rintro ⟨⟩, ⟨[], ?_, .inl rfl⟩, fun _ calm => ?_⟩
      · rw [List.append_nil]
        exact writes.of_serving running
      · simp [endServer, cancelled] at calm
  | @failed o client server _ taken =>
      have running := serverEnded_serving server
      have sound : client.Sound := Mailbox.sound_next taken
      have cancels : (t.session.cancelled || true) = true := Bool.or_true _
      refine ⟨sound, by rintro ⟨⟩, ⟨[o.event], ?_, .inr ⟨rfl, cancels, rfl⟩⟩, fun _ calm => ?_⟩
      · change t.written ++ [o.event] = client.read.map (·.event)
        rw [Mailbox.read_next taken, List.map_append, ← writes.of_serving running]
        rfl
      · simp [endServer] at calm
  | finished server _ nothing =>
      have running := serverEnded_serving server
      have drained := Mailbox.next?_eq_none writes.sound (writes.isOpen running) nothing
      refine ⟨writes.sound, by rintro ⟨⟩, ⟨[], ?_, .inl rfl⟩, fun _ _ => ⟨rfl, drained⟩⟩
      rw [List.append_nil]
      exact writes.of_serving running

/-- Any move that spares the server keeps what was written in step with what was read. -/
theorem Writes.apply (writes : t.Writes) {m : Move} (spares : m.sparesServer = true) :
    (t.apply m).Writes := by
  cases m with
  | serve =>
      rcases t.apply_serve with serves | same
      · exact serves.writes writes
      · rwa [same]
  | session m => exact writes.session (Session.spared_apply spares)
  | input bytes =>
      simp only [Transport.apply]
      split
      · exact writes
      · exact ⟨writes.sound, writes.isOpen, writes.written, writes.drained⟩
  | endInput | closeReader =>
      exact ⟨writes.sound, writes.isOpen, writes.written, writes.drained⟩

/-- In every run the server has written what it has taken from the session. -/
theorem writes_run {s : Session} {size : Nat} (client : s.client = .empty size) {moves : List Move}
    (spares : ∀ m ∈ moves, m.sparesServer = true) : ((ofSession s).run moves).Writes := by
  induction moves using List.reverseRecOn with
  | nil =>
      refine .of_running ?_ ?_ ?_ rfl <;> simp only [run, List.foldl_nil, ofSession, client]
      · exact Nat.le_refl 0
      · rfl
      · rfl
  | append_singleton moves m ih =>
      obtain ⟨others, last⟩ := List.forall_mem_append.mp spares
      rw [run_concat]
      exact (ih others).apply (last m (.head _))

/-- A server at rest, which waits for nobody but the client and the clock, has written all that
the session has for the client. -/
theorem Writes.all (writes : t.Writes) (rests : t.stepServer = none)
    (free : ∀ m, t.server ≠ .forwarding m) (calm : t.session.cancelled = false) :
    t.written = t.session.client.accepted.map (·.event) := by
  rcases stepServer_eq_none rests with ended | ⟨m, server, -⟩ | ⟨server, -, nothing, -⟩
  · obtain ⟨lost, written, rfl | ⟨-, cancelled, -⟩⟩ := writes.written
    · rw [List.append_nil] at written
      rw [written, (writes.drained ended calm).2.read_eq]
    · rw [calm] at cancelled
      cases cancelled
  · exact absurd server (free m)
  · have running := serverEnded_serving server
    have drained := Mailbox.next?_eq_none writes.sound (writes.isOpen running) nothing
    rw [writes.of_serving running, drained.read_eq]

end Transport

/-! ### Main statement -/

open Session Transport in
/-- **The output is one line for each event.** Cut at line feeds, the bytes for some events are
the lines of these events, in order, and nothing else. The line of an event has neither line
feed nor carriage return in it, as text or as bytes, whatever strings and documents the event
carries; and a reader of documents that lets them nest as deep as the event does gets the
document of the event back from it, if doubles are read back from their shortest texts. What
the server writes in a run is what the session has for the client, in order and each once, but
for the one event that it was about to write when it found that the client reads no more; and a
server that has come to rest has written all of it. -/
theorem output_is_one_line_per_event {c : Config} {f : Staffing} {search files : Behaviour}
    {size : Nat} {s : Session} (started : start c f search files size = .ok s)
    (moves : List Transport.Move) (alone : ∀ m ∈ moves, m.sparesServer = true) :
    (∀ es : List Event, (frame es).splitOn lineFeed = es.map lineBytes ++ [[]]) ∧
    (∀ e : Event, ('\n' ∉ (lineOf e).toList ∧ '\r' ∉ (lineOf e).toList) ∧
      (lineFeed ∉ lineBytes e ∧ carriageReturn ∉ lineBytes e) ∧
      String.fromUTF8? ⟨(lineBytes e).toArray⟩ = some (lineOf e)) ∧
    (∀ e : Event, Json.LegibleFloats (Json.floats e.encode) →
      (∀ depth, Json.nesting e.encode ≤ depth →
        Json.scanDocument depth (lineOf e).toList = .ok (e.encode, [])) ∧
      (Json.nesting e.encode ≤ Json.depthLimit →
        Json.parse (lineOf e).toList = .ok e.encode)) ∧
    (∃ lost, ((ofSession s).run moves).written ++ lost =
        ((ofSession s).run moves).session.client.read.map (·.event) ∧
      (lost = [] ∨ ((ofSession s).run moves).server = .ended true ∧ lost.length = 1)) ∧
    (((ofSession s).run moves).stepServer = none →
      (∀ m, ((ofSession s).run moves).server ≠ .forwarding m) →
      ((ofSession s).run moves).session.cancelled = false →
      ((ofSession s).run moves).written =
        ((ofSession s).run moves).session.client.accepted.map (·.event)) := by
  obtain ⟨size, client⟩ := (fresh_start started).client
  have writes := writes_run client alone
  refine ⟨splitOn_frame, ?_, ?_, ?_, writes.all⟩
  · intro e
    have plain {c : Char} (control : c.toNat < 32) : c ∉ (lineOf e).toList := by
      intro mem
      exact absurd (plain_lineOf e c mem) (Nat.not_le.mpr control)
    exact ⟨⟨plain (by decide), plain (by decide)⟩,
      ⟨not_mem_lineBytes e (by decide), not_mem_lineBytes e (by decide)⟩,
      fromUTF8?_utf8 (lineOf e)⟩
  · intro e legible
    rw [lineOf_toList]
    refine ⟨fun depth deep => ?_, fun deep => Json.parse_renderChars deep legible⟩
    have scanned := Json.scanDocument_renderChars deep legible Json.follows_nil
    rwa [List.append_nil] at scanned
  · obtain ⟨lost, written, cases_⟩ := writes.written
    exact ⟨lost, written, cases_.imp_right fun ⟨ended, _, one⟩ => ⟨ended, one⟩⟩

open Session Transport in
/-- A worker notifies the client of a text with control characters, quotes and a letter that is
not ASCII, and of a double. -/
theorem output_is_one_line_per_event_of_notification :
    ∃ s moves e,
      start .default ⟨.mixed, .replicate (some 4)⟩ .hangs (.finishes 0 none) 4 = .ok s ∧
      e = .notification "a\n\"\\\x01\ré" (.num (.float ⟨false, 6755399441055744, -52⟩)) ∧
      moves = [.input (utf8 "\x7b\"id\":\"1\",\"method\":\"handshake\"\x7d\n"), .serve, .serve,
        .session (.step .broker), .session (.emit .docs e), .session (.step .support),
        .session (.step .support), .session (.step .gate), .session (.step .gate),
        .session (.step .gate), .session (.step .gate), .serve, .serve] ∧
      (∀ m ∈ moves, m.sparesServer = true) ∧
      ((ofSession s).run moves).written = [Config.default.greeting "1", e] ∧
      (frame [Config.default.greeting "1", e]).splitOn lineFeed =
        [lineBytes (Config.default.greeting "1"), lineBytes e, []] ∧
      lineFeed ∉ lineBytes e ∧ Json.LegibleFloats (Json.floats e.encode) ∧
      Json.parse (lineOf e).toList = .ok e.encode ∧
      ((ofSession s).run moves).stepServer = none ∧
      ((ofSession s).run moves).written =
        ((ofSession s).run moves).session.client.accepted.map (·.event) := by
  have started : start .default ⟨.mixed, .replicate (some 4)⟩ .hangs (.finishes 0 none) 4 =
      .ok _ := start_of_isSome (by decide +kernel)
  refine ⟨_, _, _, started, rfl, rfl, by decide +kernel, by decide +kernel, ?_, ?_,
    by decide +kernel, ?_, Option.isNone_iff_eq_none.mp (by decide +kernel), ?_⟩
  · exact (output_is_one_line_per_event started [] nofun).1 _
  · exact ((output_is_one_line_per_event started [] nofun).2.1 _).2.1.1
  · exact ((output_is_one_line_per_event started [] nofun).2.2.1 _ (by decide +kernel)).2
      (by decide +kernel)
  · exact (output_is_one_line_per_event started _ (by decide +kernel)).2.2.2.2
      (Option.isNone_iff_eq_none.mp (by decide +kernel))
      (fun m server => nomatch server.symm.trans (by decide +kernel : _ = ServerState.serving))
      (by decide +kernel)

end SessionBroker
