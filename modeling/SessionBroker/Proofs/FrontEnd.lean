import SessionBroker.Proofs.Lines
import SessionBroker.Proofs.NormalForm
import SessionBroker.Proofs.Server

/-!
What the broker is told of the input of a client.

Each line that is not blank tells one thing (`Transport.Tells`). `Transport.Fronts` ties what the
broker has been told to the bytes that the client has written: the messages of the input are
those told, the one under way, and those of the bytes that are still unread. Every move keeps
it. Main statement: `front_end_faithful`.
-/

namespace SessionBroker

/-! ### Sessions that are over -/

namespace Session

variable {s t : Session}

theorem Proceeds.not_over {hs : List Happening} (h : Proceeds s hs t) : s.isOver = false := by
  cases h with
  | teardown phase => simp [isOver, ending?, phase]
  | cancelled phase | recompile phase | took phase | disconnected phase | acts phase =>
      exact not_over_of_phase phase

/-- A session that is over stays over. -/
theorem isOver_apply (sound : s.inbox.Sound) (ended : s.isOver = true) (m : Move) :
    (s.apply m).isOver = true := by
  rcases apply_cases sound m with ⟨-, proceeds⟩ | ⟨-, aside⟩
  · rw [proceeds.not_over] at ended
    cases ended
  · rwa [isOver, ending?, aside.phase]

/-- When no message is taken out of the mailbox, no more are handled. -/
theorem Fresh.handled_of_quiet {c : Config} (fresh : s.Fresh c) (moves : List Move)
    (quiet : ∀ h ∈ (s.run moves).happenings, h.message? = none) :
    ((s.run moves).apply (.step .broker)).handled = (s.run moves).handled := by
  have later := fresh.handled_eq (moves ++ [.step .broker])
  have none_ : ((s.run moves).entries (.step .broker)).filterMap (·.what.message?) = [] := by
    simpa [entries, dated] using quiet
  rw [run_concat, journal_concat, List.filterMap_append, none_, List.append_nil] at later
  rw [later, fresh.handled_eq]

end Session

namespace Transport

/-! ### What a line tells -/

/-- What a text that is not blank tells the broker: the request that it holds; else that it is
rejected, under its own identifier if it can be read as an object whose last identifier is a
text. -/
inductive Tells (text : List Char) : BrokerMessage → Prop
  | request {r : Request} : Request.parse text = .ok r → Tells text (.request r)
  | named {fault : Json.Fault} {members : List (String × Json)} {id : String} :
      Request.parse text = .error fault → Json.parse text = .ok (.obj members) →
      Fields.lookup members.reverse "id" = some (.str id) →
      Tells text (.reject (.failure id ErrorCode.invalidParams
        ("Invalid params: " ++ fault.message)))
  | unnamed {fault : Json.Fault} :
      Request.parse text = .error fault →
      (∀ members id, Json.parse text = .ok (.obj members) →
        Fields.lookup members.reverse "id" ≠ some (.str id)) →
      Tells text (.reject (.failure "unknown" ErrorCode.parseError
        ("Parse error: " ++ fault.message)))

/-- A value is a string exactly if it was written as one. -/
theorem normal_eq_str {v : Json} {s : String} : v.normal = .str s ↔ v = .str s := by
  cases v <;> simp [Json.normal]

/-- The identifier of a line is the last one of its object, if that is a text. -/
theorem lineId?_eq_some {text : List Char} {id : String} :
    lineId? text = some id ↔ ∃ members, Json.parse text = .ok (.obj members) ∧
      Fields.lookup members.reverse "id" = some (.str id) := by
  unfold lineId?
  split
  next fault unread => simp [unread]
  next v read =>
    have last : v.normal.member? "id" = some (.str id) ↔
        ∃ members, (.ok v : Except Json.Fault Json) = .ok (.obj members) ∧
          Fields.lookup members.reverse "id" = some (.str id) := by
      cases v with
      | obj members =>
          rw [Json.member?_normal_obj]
          simp [Fields.lookup, normal_eq_str]
      | _ => simp [Json.normal, Json.member?]
    rw [read, ← last]
    split
    next own there => simp [there]
    next other => simpa using other id

variable {text : List Char} {m n : BrokerMessage}

theorem Tells.ofLine (tells : Tells text m) : m.ofLine = true := by
  cases tells <;> rfl

/-- A text tells one thing. -/
theorem Tells.unique (one : Tells text m) (other : Tells text n) : m = n := by
  cases one with
  | request here =>
      cases other with
      | request there => exact congrArg _ (Except.ok.inj (here.symm.trans there))
      | named there | unnamed there => cases here.symm.trans there
  | named here read last =>
      cases other with
      | request there => cases here.symm.trans there
      | named there read' last' =>
          cases here.symm.trans there
          cases read.symm.trans read'
          cases last.symm.trans last'
          rfl
      | unnamed _ lacks => exact absurd last (lacks _ _ read)
  | unnamed here lacks =>
      cases other with
      | request there => cases here.symm.trans there
      | named _ read last => exact absurd last (lacks _ _ read)
      | unnamed there =>
          cases here.symm.trans there
          rfl

/-- A text that is not a request is told as a rejection. -/
theorem tells_rejection {fault : Json.Fault} (undecoded : Request.parse text = .error fault) :
    Tells text (.reject (rejection text fault)) := by
  unfold rejection
  split
  next id own =>
    obtain ⟨members, read, last⟩ := lineId?_eq_some.mp own
    exact .named undecoded read last
  next lacks =>
    refine .unnamed undecoded fun members id read last => ?_
    rw [lineId?_eq_some.mpr ⟨members, read, last⟩] at lacks
    cases lacks

/-- A line tells what its text tells without the white space around it; a blank line, nothing. -/
theorem messageOfLine?_eq_some {line : String} : messageOfLine? line = some m ↔
    Text.trim line.toList ≠ [] ∧ Tells (Text.trim line.toList) m := by
  have tells : Text.trim line.toList ≠ [] →
      ∃ n, messageOfLine? line = some n ∧ Tells (Text.trim line.toList) n := by
    intro present
    have something : (Text.trim line.toList).isEmpty = false := by simpa using present
    simp only [messageOfLine?, something, Bool.false_eq_true, if_false]
    split
    next r decoded => exact ⟨_, rfl, .request decoded⟩
    next fault undecoded => exact ⟨_, rfl, tells_rejection undecoded⟩
  constructor
  · intro told
    have present : Text.trim line.toList ≠ [] := fun blank => by
      rw [messageOfLine?_eq_none.mpr (Text.trim_eq_nil_iff.mp blank)] at told
      cases told
    obtain ⟨n, told', tells⟩ := tells present
    cases told.symm.trans told'
    exact ⟨present, tells⟩
  · rintro ⟨present, here⟩
    obtain ⟨n, told, there⟩ := tells present
    rw [told, there.unique here]

/-! ### The input of a run -/

/-- The bytes that the client writes in some moves, up to where it says that it writes no
more. -/
def inputOf : List Move → List UInt8
  | [] => []
  | .input bytes :: moves => bytes ++ inputOf moves
  | .endInput :: _ => []
  | _ :: moves => inputOf moves

/-- Whether the client says in some moves that it writes no more. -/
def endsInput (moves : List Move) : Bool :=
  moves.any fun
    | .endInput => true
    | _ => false

def Move.byClient : Move → Bool
  | .input _ | .endInput | .closeReader => true
  | _ => false

def Move.written (ended : Bool) (m : Move) : List UInt8 := if ended then [] else inputOf [m]

theorem Move.written_of_silent {m : Move} {ended : Bool} (silent : inputOf [m] = []) :
    m.written ended = [] := by
  rw [written, silent, ite_self]

theorem endsInput_concat (moves : List Move) (m : Move) :
    endsInput (moves ++ [m]) = (endsInput moves || endsInput [m]) :=
  List.any_append

theorem inputOf_concat (moves : List Move) (m : Move) :
    inputOf (moves ++ [m]) = inputOf moves ++ m.written (endsInput moves) := by
  induction moves with
  | nil => rfl
  | cons first rest ih =>
      cases first with
      | input bytes => rw [List.cons_append, inputOf, ih, inputOf, List.append_assoc]; rfl
      | endInput => rfl
      | _ => exact ih

variable {t u : Transport} {input more : List UInt8} {e : Bool}

/-- The unread input can go on with some bytes, and then end or not. -/
def MayFollow (t : Transport) (more : List UInt8) (e : Bool) : Prop :=
  t.inputEnded = true → more = [] ∧ e = true

/-- What the client does only touches the input. -/
theorem client_apply {m : Move} (client : m.byClient = true) :
    (t.apply m).session = t.session ∧ (t.apply m).server = t.server ∧
      (t.apply m).unread = t.unread ++ m.written t.inputEnded ∧
      (t.apply m).inputEnded = (t.inputEnded || endsInput [m]) := by
  cases m with
  | serve | session => cases client
  | input bytes | endInput | closeReader =>
      cases ended : t.inputEnded <;>
        simp [Transport.apply, Move.written, ended, inputOf, endsInput]

/-- What may follow a move, may follow what it adds. -/
theorem MayFollow.of_apply {m : Move}
    (ended : (t.apply m).inputEnded = (t.inputEnded || endsInput [m]))
    (follow : (t.apply m).MayFollow more e) :
    t.MayFollow (m.written t.inputEnded ++ more) e := by
  intro was
  obtain ⟨rfl, rfl⟩ := follow (by rw [ended, was, Bool.true_or])
  exact ⟨by simp [Move.written, was], rfl⟩

/-! ### What the broker has been told -/

/-- The message that is on its way to the broker. -/
def underWay (t : Transport) : List BrokerMessage :=
  match t.server with
  | .forwarding m => [m]
  | _ => []

/-- The session is over, or will be as it was cancelled. -/
def Gone (t : Transport) : Prop := t.session.isOver = true ∨ t.session.cancelled = true

/-- The broker has been told what the input tells, but for what is under way and what is still
unread. While the server has the handle it reads on; it lets go of it when nothing more can be
read, or when the session is over or cancelled, and then one message may be lost. -/
structure Fronts (input : List UInt8) (t : Transport) : Prop where
  ofLine : ∀ m ∈ t.underWay, m.ofLine = true
  told : ∃ lost, (∀ more e, t.MayFollow more e → messages (input ++ more) e =
      t.session.lines ++ t.underWay ++ lost ++ messages (t.unread ++ more) e) ∧
    (lost = [] ∨ t.session.handleHeld = false ∧ t.Gone)
  deaf : t.session.handleHeld = false →
    t.Gone ∨ ∀ more e, t.MayFollow more e → messages (t.unread ++ more) e = []
  ended : t.serverEnded = true → t.Gone

theorem underWay_serving (server : t.server = .serving) : t.underWay = [] := by
  rw [underWay, server]

/-- While the server has the handle nothing is lost. -/
theorem Fronts.held (fronts : Fronts input t) (held : t.session.handleHeld = true)
    (follow : t.MayFollow more e) :
    messages (input ++ more) e =
      t.session.lines ++ t.underWay ++ messages (t.unread ++ more) e := by
  obtain ⟨lost, told, rfl | ⟨dropped, -⟩⟩ := fronts.told
  · simpa using told more e follow
  · rw [held] at dropped
    cases dropped

/-- The server ends, as the session is over or cancelled. -/
theorem Fronts.ends (fronts : Fronts input t) (server : t.server = .serving)
    {client : Mailbox Outgoing} {failed : Bool}
    (gone : ({ t with session := { t.session with client } }.endServer failed).Gone) :
    Fronts input ({ t with session := { t.session with client } }.endServer failed) := by
  obtain ⟨lost, told, -⟩ := fronts.told
  rw [underWay_serving server] at told
  exact ⟨nofun, ⟨lost, told, .inr ⟨rfl, gone⟩⟩, fun _ => .inl gone, fun _ => gone⟩

theorem Serves.inputEnded (h : Serves t u) : u.inputEnded = t.inputEnded := by
  cases h <;> rfl

/-- The server keeps it: a line read is under way, then told, or lost if the broker is gone. -/
theorem Fronts.serve (fronts : Fronts input t) (h : Serves t u) (engaged : t.Engaged)
    (isOpen : t.session.isOver = false → t.session.inbox.isOpen = true) : Fronts input u := by
  cases h with
  | @told m inbox server offered =>
      have held := engaged m server
      have underWay : t.underWay = [m] := by rw [underWay, server]
      have line : [m].filter (·.ofLine) = [m] := by
        simpa using fronts.ofLine m (by simp [underWay])
      refine ⟨nofun, ⟨[], fun more e follow => ?_, .inl rfl⟩, ?_, nofun⟩
      · rw [fronts.held held follow, underWay, Session.lines_offer offered, line]
        simp [Transport.underWay]
      · intro dropped
        cases held.symm.trans dropped
  | @refused m server isClosed =>
      have held := engaged m server
      have underWay : t.underWay = [m] := by rw [underWay, server]
      have gone : t.stopReading.Gone := .inl (by
        cases ended : t.session.isOver with
        | true => exact ended
        | false => cases (isOpen ended).symm.trans isClosed)
      refine ⟨nofun, ⟨[m], fun more e follow => ?_, .inr ⟨rfl, gone⟩⟩, fun _ => .inl gone, nofun⟩
      rw [fronts.held held follow, underWay]
      simp [Transport.underWay, stopReading, Session.lines]
  | cancelled server cancelled =>
      exact fronts.ends server (.inr (by simp [endServer, cancelled]))
  | failed server =>
      exact fronts.ends server (.inr (by simp [endServer]))
  | finished server _ _ unused =>
      have ended : t.session.isOver = true := by
        simp only [Session.clientInUse, Bool.or_eq_false_iff, Bool.not_eq_false'] at unused
        exact unused.1
      exact fronts.ends server (.inl ended)
  | wrote => exact ⟨fronts.ofLine, fronts.told, fronts.deaf, fronts.ended⟩
  | @read text rest server held line =>
      have front {more : List UInt8} {e : Bool} (follow : t.MayFollow more e) :
          messages (t.unread ++ more) e =
            (messageOfLine? text).toList ++ messages (rest ++ more) e := by
        simpa only [line] using messages_of_reading t.unread follow
      have next : underWay { t with
          unread := rest, server := (messageOfLine? text).elim .serving .forwarding } =
            (messageOfLine? text).toList := by
        cases messageOfLine? text <;> rfl
      refine ⟨fun m mem => ?_, ⟨[], fun more e follow => ?_, .inl rfl⟩, ?_, ?_⟩
      · rw [next] at mem
        exact (messageOfLine?_eq_some.mp (Option.mem_toList.mp mem)).2.ofLine
      · rw [fronts.held held follow, underWay_serving server, front follow, next]
        simp
      · intro dropped
        cases held.symm.trans dropped
      · intro ended
        cases told : messageOfLine? text <;> simp [serverEnded, told] at ended
  | stopped server held stops =>
      have nothing {more : List UInt8} {e : Bool} (follow : t.MayFollow more e) :
          messages (t.unread ++ more) e = [] := by
        have reading := messages_of_reading t.unread follow
        rcases stops with broken | ended
        · simpa only [broken] using reading
        · simpa only [ended] using reading
      refine ⟨nofun, ⟨[], fun more e follow => ?_, .inl rfl⟩, fun _ => .inr fun _ _ => nothing, nofun⟩
      rw [fronts.held held follow, underWay_serving server]
      simp [underWay, stopReading, Session.lines]

/-- The others leave to the server what it has told the broker. -/
theorem Fronts.session (fronts : Fronts input t) (sound : t.session.inbox.Sound)
    {m : SessionBroker.Move} (spares : m.sparesServer = true) :
    Fronts input { t with session := t.session.apply m } := by
  have spared := Session.spared_apply (s := t.session) spares
  have gone (before : t.Gone) : Gone { t with session := t.session.apply m } :=
    before.imp (Session.isOver_apply sound · m) spared.cancelled
  obtain ⟨lost, told, kept⟩ := fronts.told
  refine ⟨fronts.ofLine, ⟨lost, fun more e follow => ?_, ?_⟩, fun dropped => ?_, fun ended => ?_⟩
  · rw [told more e follow]
    simp only [spared.lines]
    rfl
  · exact kept.imp_right fun ⟨dropped, before⟩ => ⟨spared.handleHeld.trans dropped, gone before⟩
  · exact (fronts.deaf (spared.handleHeld.symm.trans dropped)).imp_left gone
  · exact gone (fronts.ended ended)

/-- The client writes, or says that it writes no more. -/
theorem Fronts.client (fronts : Fronts input t) {m : Move} (client : m.byClient = true) :
    Fronts (input ++ m.written t.inputEnded) (t.apply m) := by
  obtain ⟨session, server, unread, ended⟩ := client_apply (t := t) client
  have underWay : (t.apply m).underWay = t.underWay := by
    rw [Transport.underWay, Transport.underWay, server]
  have gone : (t.apply m).Gone ↔ t.Gone := by rw [Gone, Gone, session]
  obtain ⟨lost, told, kept⟩ := fronts.told
  refine ⟨underWay ▸ fronts.ofLine, ⟨lost, fun more e follow => ?_, ?_⟩, fun dropped => ?_,
    fun stopped => ?_⟩
  · rw [List.append_assoc, told _ e (follow.of_apply ended), session, underWay, unread,
      List.append_assoc t.unread]
  · rwa [session, gone]
  · rw [gone]
    refine (fronts.deaf (session ▸ dropped)).imp_right fun nothing more e follow => ?_
    rw [unread, List.append_assoc]
    exact nothing _ e (follow.of_apply ended)
  · rw [gone]
    exact fronts.ended (by rwa [serverEnded, server] at stopped)

/-! ### Runs -/

variable {c : Config} {s : Session} {moves : List Move}

/-- In every run the broker has been told what the client has written so far. -/
theorem fronts_run (fresh : s.Fresh c) (alone : ∀ m ∈ moves, m.sparesServer = true) :
    Fronts (inputOf moves) ((ofSession s).run moves) ∧
      ((ofSession s).run moves).inputEnded = endsInput moves := by
  induction moves using List.reverseRecOn with
  | nil =>
      have lines : s.lines = [] := by
        rw [Session.lines, fresh.inbox]
        rfl
      refine ⟨⟨nofun, ⟨[], fun more e _ => ?_, .inl rfl⟩, fun dropped => ?_, nofun⟩, rfl⟩
      · simp [run, ofSession, inputOf, lines, underWay]
      · cases fresh.handleHeld.symm.trans dropped
  | append_singleton moves m ih =>
      obtain ⟨others, last⟩ := List.forall_mem_append.mp alone
      obtain ⟨fronts, ended⟩ := ih others
      obtain ⟨engaged, own, session⟩ := session_run s others
      have sound : ((ofSession s).run moves).session.inbox.Sound :=
        session ▸ (fresh.orderly_of_run own).sound
      have isOpen : ((ofSession s).run moves).session.isOver = false →
          ((ofSession s).run moves).session.inbox.isOpen = true :=
        session ▸ (fresh.steady own).isOpen
      rw [run_concat, inputOf_concat, endsInput_concat, ← ended]
      cases m with
      | serve =>
          rw [Move.written_of_silent rfl, List.append_nil]
          rcases ((ofSession s).run moves).apply_serve with serves | same
          · exact ⟨fronts.serve serves engaged isOpen,
              serves.inputEnded.trans (Bool.or_false _).symm⟩
          · rw [same]
            exact ⟨fronts, (Bool.or_false _).symm⟩
      | session n =>
          rw [Move.written_of_silent rfl, List.append_nil]
          exact ⟨fronts.session sound (last _ (.head _)), (Bool.or_false _).symm⟩
      | input | endInput | closeReader =>
          exact ⟨fronts.client rfl, (client_apply rfl).2.2.2⟩

/-- What the broker has been told, and what is under way, is what the input tells first. -/
theorem Fronts.told_prefix (fronts : Fronts input t) :
    t.session.lines ++ t.underWay <+: messages input t.inputEnded := by
  obtain ⟨lost, told, -⟩ := fronts.told
  have now := told [] t.inputEnded fun ended => ⟨rfl, ended⟩
  rw [List.append_nil, List.append_nil, List.append_assoc] at now
  exact ⟨_, now.symm⟩

/-- A server at rest has told the broker everything that can be read so far, while there is a
session; or it waits for room in the broker's mailbox. -/
theorem Fronts.all (fronts : Fronts input t) (rests : t.stepServer = none) (here : ¬t.Gone) :
    (∃ m, t.server = .forwarding m ∧ t.session.inbox.isFull = true) ∨
      t.session.lines = messages input t.inputEnded := by
  rcases stepServer_eq_none rests with ended | waits | ⟨server, -, -, -, stops⟩
  · exact absurd (fronts.ended ended) here
  · exact .inl waits
  right
  have follow : t.MayFollow [] t.inputEnded := fun ended => ⟨rfl, ended⟩
  have nothing : messages t.unread t.inputEnded = [] := by
    rcases stops with dropped | incomplete
    · have deaf := (fronts.deaf dropped).resolve_left here [] _ follow
      rwa [List.append_nil] at deaf
    · have reading := messages_of_reading t.unread follow
      simp only [incomplete] at reading
      rw [reading.1, reading.2]
  obtain ⟨lost, told, rfl | ⟨-, gone⟩⟩ := fronts.told
  · simpa [nothing, underWay_serving server] using (told [] _ follow).symm
  · exact absurd gone here

/-! ### The end of the input -/

/-- The server does not touch what the broker is busy with. -/
theorem Serves.phase (h : Serves t u) : u.session.phase = t.session.phase := by
  cases h <;> rfl

theorem decided_of_phase {s t : Session} (same : t.phase = s.phase) : t.decided = s.decided := by
  rw [Session.decided, Session.decided, same]

/-- Only moves of the session decide how it ends. -/
theorem decided_apply {m : Move} (outside : ∀ n, m ≠ .session n) :
    (t.apply m).session.decided = t.session.decided := by
  cases m with
  | session n => exact absurd rfl (outside n)
  | serve =>
      rcases t.apply_serve with serves | same
      · exact decided_of_phase serves.phase
      · rw [same]
  | input | endInput | closeReader => rw [(client_apply rfl).1]

/-- When the loop is left because nobody can send any more, all that the input tells, however it
may go on, has been handled. -/
theorem Fronts.of_disconnected {exits : Bool} {what : Happening} (fronts : Fronts input t)
    (engaged : t.Engaged) (undecided : t.session.decided = none)
    (stops : Session.Stops exits t.session what (.exit .disconnected))
    (follow : t.MayFollow more e) :
    what = .disconnected ∧
      messages (input ++ more) e = t.session.handled.filter (·.ofLine) := by
  obtain rfl := Happening.eq_disconnected stops.ending
  obtain ⟨handled, alone⟩ := stops.disconnected rfl
  have dropped : t.session.handleHeld = false := by
    simp only [Session.hasSender, Bool.or_eq_false_iff] at alone
    exact alone.1.1
  have here : ¬t.Gone := by
    rintro (ended | cancelled)
    · unfold Session.decided at undecided
      unfold Session.isOver Session.ending? at ended
      split at undecided <;> simp_all
    · cases stops.cancelled.mpr cancelled
  have idle : t.underWay = [] := by
    unfold underWay
    split
    next m server => cases (engaged m server).symm.trans dropped
    next => rfl
  obtain ⟨lost, told, rfl | ⟨-, gone⟩⟩ := fronts.told
  · rw [told more e follow, (fronts.deaf dropped).resolve_left here more e follow, idle, handled]
    simp [Session.lines]
  · exact absurd gone here

/-- Once a session ends because nobody can send any more, all that the input tells, however it
may go on, has been handled: it was when the broker left its loop, and no more is handled
after that. -/
theorem handled_of_disconnected (fresh : s.Fresh c) (alone : ∀ m ∈ moves, m.sparesServer = true)
    (ends : ((ofSession s).run moves).session.decided = some (.exit .disconnected))
    (follow : ((ofSession s).run moves).MayFollow more e) :
    messages (inputOf moves ++ more) e =
      ((ofSession s).run moves).session.handled.filter (·.ofLine) := by
  induction moves using List.reverseRecOn generalizing more with
  | nil =>
      rw [run, List.foldl_nil, ofSession, Session.decided_of_idle fresh.phase] at ends
      cases ends
  | append_singleton moves m ih =>
      obtain ⟨others, last⟩ := List.forall_mem_append.mp alone
      obtain ⟨fronts, ended⟩ := fronts_run fresh others
      obtain ⟨-, ended'⟩ := fronts_run fresh alone
      obtain ⟨engaged, own, session⟩ := session_run s others
      obtain ⟨-, next, session'⟩ := engaged.apply (last m (.head _))
      rw [endsInput_concat, ← ended, run_concat] at ended'
      rw [run_concat] at ends follow ⊢
      have follow' := follow.of_apply ended'
      rw [inputOf_concat, List.append_assoc, ← ended]
      by_cases before : ((ofSession s).run moves).session.decided = some (.exit .disconnected)
      · rw [ih others before follow', session', session, ← Session.run_append]
        rw [session] at before
        rw [(fresh.decided_run before next).2.2.1]
      by_cases outside : ∃ n, m = .session n
      · obtain ⟨n, rfl⟩ := outside
        have decides := fresh.decides own n
        rw [← session] at decides
        rcases decides with ⟨rfl, decides⟩ | ⟨-, same, -⟩
        · cases decides with
          | nothing _ after_ => cases after_.symm.trans ends
          | before earlier after_ =>
              cases after_.symm.trans ends
              exact absurd earlier before
          | stops undecided stops happens after_ =>
              cases after_.symm.trans ends
              obtain ⟨rfl, told⟩ := fronts.of_disconnected engaged undecided stops follow'
              have quiet : ∀ h ∈ (s.run own).happenings, h.message? = none := by
                rw [← session, happens]
                simp [Happening.message?]
              rw [told, session, ← fresh.handled_of_quiet own quiet]
              simp only [Transport.apply, session]
        · exact absurd (same.symm.trans ends) before
      · have same := decided_apply (t := (ofSession s).run moves) fun n is => outside ⟨n, is⟩
        exact absurd (same.symm.trans ends) before

/-- A line that is not UTF-8 hides all that follows, and itself. -/
theorem messages_of_undecodable {line : List UInt8} (inside : lineFeed ∉ line)
    (undecodable : decode? line = none) :
    messages (line ++ lineFeed :: more) e = [] ∧ messages line e = [] := by
  constructor
  · rw [messages_cons inside, undecodable]
    rfl
  · rw [messages_last inside, lastLine]
    split
    · rw [texts, undecodable]
      rfl
    · rfl

end Transport

/-! ### Main statement -/

open Session Transport in
/-- **The server is a faithful front end.** A blank line tells the broker nothing, any other
line one thing: the request that it holds without the white space around it; else that it is
rejected, under its own identifier if the reader of documents finds an object in it whose last
identifier is a text. So white space around a line changes nothing, and what the lines of an
input tell depends neither on how they are ended nor on what follows; the last line of the whole
input needs no end, and a line that is not UTF-8 hides all that follows it. In every run the
broker is told what the input tells, in order and each once: a server that has come to rest has
told it everything, unless the broker's mailbox is full, or the session is over or cancelled.
And if the session ends because nobody can send to the broker any more, all of it was handled
before. -/
theorem front_end_faithful {c : Config} {f : Staffing} {search files : Behaviour} {size : Nat}
    {s : Session} (started : start c f search files size = .ok s)
    (moves : List Transport.Move) (alone : ∀ m ∈ moves, m.sparesServer = true) :
    ((∀ line m, messageOfLine? line = some m ↔
        Text.trim line.toList ≠ [] ∧ Tells (Text.trim line.toList) m) ∧
      (∀ line, messageOfLine? line = none ↔ ∀ c ∈ line.toList, Text.isBlank c = true) ∧
      ∀ (before after : List Char) (line : String), (∀ c ∈ before, Text.isBlank c = true) →
        (∀ c ∈ after, Text.isBlank c = true) →
        messageOfLine? (String.ofList (before ++ line.toList ++ after)) = messageOfLine? line) ∧
    ((∀ lines : List (String × Bool), (∀ l ∈ lines, '\n' ∉ l.1.toList) → ∀ more ended,
        messages (ofLines lines ++ more) ended =
          (lines.map (·.1)).filterMap messageOfLine? ++ messages more ended) ∧
      (∀ line : String, '\n' ∉ line.toList → messages (utf8 line) true = (messageOfLine? line).toList) ∧
      ∀ line : List UInt8, lineFeed ∉ line → decode? line = none → ∀ more ended,
        messages (line ++ lineFeed :: more) ended = [] ∧ messages line ended = []) ∧
    (((ofSession s).run moves).session.lines ++ ((ofSession s).run moves).underWay <+:
        messages (inputOf moves) (endsInput moves) ∧
      (((ofSession s).run moves).stepServer = none → ¬((ofSession s).run moves).Gone →
        (∃ m, ((ofSession s).run moves).server = .forwarding m ∧
          ((ofSession s).run moves).session.inbox.isFull = true) ∨
        ((ofSession s).run moves).session.lines = messages (inputOf moves) (endsInput moves)) ∧
      (((ofSession s).run moves).session.decided = some (.exit .disconnected) →
        ((ofSession s).run moves).session.lines = messages (inputOf moves) (endsInput moves) ∧
        ((ofSession s).run moves).session.handled.filter (·.ofLine) =
          messages (inputOf moves) (endsInput moves))) := by
  have fresh := fresh_start started
  obtain ⟨fronts, ended⟩ := fronts_run fresh alone
  refine ⟨⟨fun _ _ => messageOfLine?_eq_some, fun _ => messageOfLine?_eq_none,
      fun _ _ _ => messageOfLine?_of_blank⟩,
    ⟨fun _ inside _ _ => messages_ofLines inside, fun _ => messages_unended,
      fun _ inside undecodable _ _ => messages_of_undecodable inside undecodable⟩, ?_⟩
  have told := ended ▸ fronts.told_prefix
  refine ⟨told, ended ▸ fronts.all, fun ends => ?_⟩
  have follow : ((ofSession s).run moves).MayFollow [] (endsInput moves) :=
    fun was => ⟨rfl, ended.symm.trans was⟩
  have all := handled_of_disconnected fresh alone ends follow
  rw [List.append_nil] at all
  have handled : ((ofSession s).run moves).session.handled.filter (·.ofLine) <+:
      ((ofSession s).run moves).session.lines := (Mailbox.read_prefix _).filter _
  have lines := (List.prefix_append _ _).trans told
  rw [← all] at handled
  exact ⟨lines.sublist.antisymm handled.sublist, all.symm⟩

open Session Transport in
/-- The client shakes hands, writes a blank line and a line without a method, and ends its input
within a line. -/
theorem front_end_faithful_of_rejects :
    ∃ s early late hello named unnamed,
      start .default ⟨.mixed, .replicate (some 4)⟩ .hangs (.finishes 0 none) 4 = .ok s ∧
      early = [.input (utf8 "\x7b\"id\":\"1\",\"method\":\"handshake\"\x7d\r\n \t\n"),
        .input (utf8 "\x7b\"id\":\"5\"\x7d\n\x7b\"id\":"), .endInput, .serve, .serve, .serve, .serve,
        .serve, .serve, .serve, .serve] ∧
      late = [.session (.step .broker), .session (.step .broker), .session (.step .broker),
        .session (.step .broker)] ∧
      hello = .request ⟨"1", .handshake ⟨none, none, none⟩⟩ ∧
      named = .reject (.failure "5" ErrorCode.invalidParams
        "Invalid params: missing field `method` at line 1 column 10") ∧
      unnamed = .reject (.failure "unknown" ErrorCode.parseError
        "Parse error: EOF while parsing a value at line 1 column 6") ∧
      (∀ m ∈ early ++ late, m.sparesServer = true) ∧
      messages (inputOf early) true = [hello, named, unnamed] ∧
      ((ofSession s).run early).session.lines = [hello, named, unnamed] ∧
      ((ofSession s).run (early ++ late)).session.decided = some (.exit .disconnected) ∧
      ((ofSession s).run (early ++ late)).session.handled.filter (·.ofLine) =
        [hello, named, unnamed] := by
  have started : start .default ⟨.mixed, .replicate (some 4)⟩ .hangs (.finishes 0 none) 4 =
      .ok _ := start_of_isSome (by decide +kernel)
  refine ⟨_, _, _, _, _, _, started, rfl, rfl, rfl, rfl, rfl, by decide +kernel,
    by decide +kernel, ?_, by decide +kernel, ?_⟩
  · refine (((front_end_faithful started _ (by decide +kernel)).2.2.2.1
      (Option.isNone_iff_eq_none.mp (by decide +kernel))
      (not_or.mpr ⟨by decide +kernel, by decide +kernel⟩)).resolve_left ?_).trans
      (by decide +kernel)
    rintro ⟨m, server, -⟩
    exact nomatch server.symm.trans (by decide +kernel : _ = ServerState.serving)
  · exact ((front_end_faithful started _ (by decide +kernel)).2.2.2.2 (by decide +kernel)).2.trans
      (by decide +kernel)

open Transport in
/-- A line of one object with a text under its one identifier, as a reader finds that passes over
the other members; but one of these is a number that no double can hold, so for the reader of
documents the line holds nothing, and it is rejected under no name of its own. -/
theorem own_identifier_unseen :
    Json.scanRecord Envelope.shape [Json.textField "id"] Json.depthLimit
        "\x7b\"id\":\"5\",\"method\":\"search\",\"params\":\x7b\"query\":1e999\x7d\x7d".toList =
      .ok ([("id", .str "5")], []) ∧
    messageOfLine? "\x7b\"id\":\"5\",\"method\":\"search\",\"params\":\x7b\"query\":1e999\x7d\x7d" =
      some (.reject (.failure "unknown" ErrorCode.parseError
        "Parse error: number out of range at line 1 column 51")) :=
  ⟨by decide +kernel, by decide +kernel⟩

end SessionBroker
