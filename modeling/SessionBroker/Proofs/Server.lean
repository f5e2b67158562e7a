import SessionBroker.Proofs.Decision
import SessionBroker.Transport.Basic

/-!
The server and the session that it serves.

The server alone holds the client's handle and reads the events; `Move.sparesServer` singles
out what the others can do. Main statements: `spared_apply`, such a move leaves the server's
two ends to it, and `session_run`, behind a server a session only makes moves of its own, so
that all that holds of the runs of a session holds here.
-/

namespace SessionBroker

/-- Whether a message tells the broker of a line of the client. -/
def BrokerMessage.ofLine : BrokerMessage → Bool
  | .request _ | .reject _ => true
  | _ => false

/-- Whether a move is none of those that only the server makes: it tells the broker of lines,
gives up the handle, and reads the events. -/
def Move.sparesServer : Move → Bool
  | .send m => !m.ofLine
  | .dropHandle | .readClient _ | .closeClient => false
  | _ => true

namespace Session

variable {allowed : Move → Prop} {s t u : Session} {out : List Event}

/-- The lines that the broker has been told of, oldest first. -/
def lines (s : Session) : List BrokerMessage := s.inbox.accepted.filter (·.ofLine)

theorem lines_congr (same : t.inbox.accepted = s.inbox.accepted) : t.lines = s.lines :=
  congrArg (List.filter _) same

/-- A message that is accepted is a line more if it was read off one. -/
theorem lines_offer {m : BrokerMessage} {inbox : Mailbox BrokerMessage}
    (offered : s.inbox.offer m = .ok inbox) :
    lines { s with inbox } = s.lines ++ [m].filter (·.ofLine) := by
  obtain ⟨-, -, rfl⟩ := Mailbox.offer_eq_ok.mp offered
  exact List.filter_append ..

/-- What the others leave to the server: the handle, the telling of lines, and the reading of
events. They may write more events while the server reads. -/
structure Spared (s t : Session) : Prop where
  handleHeld : t.handleHeld = s.handleHeld
  lines : t.lines = s.lines
  taken : t.client.taken = s.client.taken
  isOpen : t.client.isOpen = s.client.isOpen
  accepted : s.client.accepted <+: t.client.accepted
  closed : s.client.isOpen = false → t.client.accepted = s.client.accepted
  cancelled : s.cancelled = true → t.cancelled = true

theorem Spared.refl (s : Session) : Spared s s :=
  ⟨rfl, rfl, rfl, rfl, List.prefix_refl _, fun _ => rfl, id⟩

theorem Spared.trans (first : Spared s t) (second : Spared t u) : Spared s u where
  handleHeld := second.handleHeld.trans first.handleHeld
  lines := second.lines.trans first.lines
  taken := second.taken.trans first.taken
  isOpen := second.isOpen.trans first.isOpen
  accepted := first.accepted.trans second.accepted
  closed isClosed :=
    (second.closed (first.isOpen.trans isClosed)).trans (first.closed isClosed)
  cancelled was := second.cancelled (first.cancelled was)

/-- An event is written for the client. -/
theorem spared_offer {o : Outgoing} {client : Mailbox Outgoing}
    (offered : s.client.offer o = .ok client) : Spared s { s with client } := by
  obtain ⟨isOpen, -, rfl⟩ := Mailbox.offer_eq_ok.mp offered
  exact { Spared.refl s with
    accepted := List.prefix_append _ _, closed := fun isClosed => by simp [isOpen] at isClosed }

/-- An event that is written to the client leaves lines and handle alone. -/
theorem spared_tell (o : Outgoing) : Spared s { s with client := Outlets.tell s.client o } := by
  unfold Outlets.tell
  split
  · rename_i client offered
    exact spared_offer offered
  · exact Spared.refl s

/-- Someone tells the broker of something else than a line. -/
theorem spared_send {m : BrokerMessage} (other : m.ofLine = false)
    {inbox : Mailbox BrokerMessage} (offered : s.inbox.offer m = .ok inbox) :
    Spared s { s with inbox } := by
  refine { Spared.refl s with lines := (lines_offer offered).trans ?_ }
  simp [other]

/-- What comes from outside leaves lines and handle alone, unless it is for the server. -/
theorem spared_outside {m : Move} (outside : ∀ task, m ≠ .step task)
    (spares : m.sparesServer = true) : Spared s (s.apply m) := by
  cases m with
  | step task => exact absurd rfl (outside task)
  | send m =>
      simp only [apply]
      cases sent : s.send m with
      | error refusal => exact Spared.refl s
      | ok t =>
          obtain ⟨inbox, offered, rfl⟩ := send_eq_ok sent
          exact spared_send (by simpa [Move.sparesServer] using spares) offered
  | emit w e =>
      simp only [apply]
      cases emitted : s.emit w e with
      | error refusal => exact Spared.refl s
      | ok t =>
          rcases emit_eq_ok emitted with ⟨relay, inbox, -, -, rfl⟩ | ⟨inbox, -, rfl⟩ <;>
            exact { Spared.refl s with }
  | finishIndex outcome =>
      simp only [apply, finishIndex]
      split <;> exact { Spared.refl s with }
  | cancel => exact { Spared.refl s with cancelled := fun _ => rfl }
  | dropHandle | readClient | closeClient => cases spares
  | _ => exact { Spared.refl s with }

theorem Background.spared (h : Background allowed s t)
    (spares : ∀ m, allowed m → m.sparesServer = true) : Spared s t := by
  cases h with
  | cancelled | disconnected => exact { Spared.refl s with }
  | recompile _ due =>
      obtain ⟨debouncer, rfl⟩ := recompileIfDue_eq_some due
      exact { Spared.refl s with }
  | teardown _ stepped =>
      obtain ⟨teardown, rfl | rfl⟩ := stepTeardown_eq_some stepped <;>
        exact { Spared.refl s with }
  | gate stepped =>
      obtain ⟨⟨g, client⟩, gated, rfl⟩ := Option.map_eq_some_iff.mp stepped
      rcases Gate.step_client gated with ⟨o, offered⟩ | rfl
      · exact { spared_offer offered with }
      · exact { Spared.refl s with }
  | support stepped =>
      obtain ⟨_, -, rfl⟩ := Option.map_eq_some_iff.mp stepped
      exact { Spared.refl s with }
  | analysis stepped =>
      obtain ⟨relay, -, stepped⟩ := Option.bind_eq_some_iff.mp stepped
      obtain ⟨_, -, rfl⟩ := Option.map_eq_some_iff.mp stepped
      exact { Spared.refl s with }
  | index stepped =>
      rcases stepIndex_eq_some stepped with ⟨index, rfl⟩ | ⟨outcome, inbox, index, offered, rfl⟩
      · exact { Spared.refl s with }
      · exact { spared_send rfl offered with }
  | watch stepped =>
      rcases stepWatch_eq_some stepped with ⟨watches, rfl⟩ | ⟨change, inbox, watches, offered, rfl⟩
      · exact { Spared.refl s with }
      · exact { spared_send rfl offered with }
  | outside only foreign => exact spared_outside foreign (spares _ only)

theorem Transition.spared (h : Transition allowed s out t)
    (spares : ∀ m, allowed m → m.sparesServer = true) : Spared s t := by
  cases h with
  | @reply e _ _ _ =>
      have told := spared_tell (s := s) (.ofBroker e)
      exact { told with }
  | emit | activate | route | finish => exact { Spared.refl s with }
  | receive _ _ _ taken =>
      exact { Spared.refl s with lines := lines_congr (Mailbox.accepted_next taken) }
  | background background => exact background.spared spares

/-- A move that is not the server's leaves its two ends to it. -/
theorem spared_apply {m : Move} (spares : m.sparesServer = true) : Spared s (s.apply m) := by
  obtain ⟨out, reached⟩ := reaches_run (fun m => m.sparesServer = true) s [m]
    fun n mem _ => List.mem_singleton.mp mem ▸ spares
  exact reached.invariant (P := Spared s) (.refl s)
    fun here next => here.trans (next.spared fun _ only => only)

end Session

namespace Transport

variable {t u : Transport}

/-! ### What a move of the server does -/

inductive Serves (t : Transport) : Transport → Prop
  /-- The broker is told of a line. -/
  | told {m : BrokerMessage} {inbox : Mailbox BrokerMessage} :
      t.server = .forwarding m → t.session.inbox.offer m = .ok inbox →
      Serves t { t with server := .serving, session := { t.session with inbox } }
  /-- The broker is gone. -/
  | refused {m : BrokerMessage} :
      t.server = .forwarding m → t.session.inbox.isOpen = false → Serves t t.stopReading
  | cancelled :
      t.server = .serving → t.session.cancelled = true → Serves t (t.endServer false)
  | wrote {o : Outgoing} {client : Mailbox Outgoing} :
      t.server = .serving → t.session.cancelled = false →
      t.session.client.next? = some (o, client) → t.readerOpen = true →
      Serves t { t with
        session := { t.session with client }, written := t.written ++ [o.event] }
  /-- The client does not take an event. -/
  | failed {o : Outgoing} {client : Mailbox Outgoing} :
      t.server = .serving → t.session.cancelled = false →
      t.session.client.next? = some (o, client) → t.readerOpen = false →
      Serves t ({ t with session := { t.session with client } }.endServer true)
  /-- No more events can come. -/
  | finished :
      t.server = .serving → t.session.cancelled = false → t.session.client.next? = none →
      t.session.clientInUse = false → Serves t (t.endServer false)
  /-- A line is read. -/
  | read {text : String} {rest : List UInt8} :
      t.server = .serving → t.session.handleHeld = true →
      readLine t.unread t.inputEnded = .line text rest →
      Serves t { t with
        unread := rest, server := (messageOfLine? text).elim .serving .forwarding }
  /-- No more lines can be read. -/
  | stopped :
      t.server = .serving → t.session.handleHeld = true →
      readLine t.unread t.inputEnded = .broken ∨ readLine t.unread t.inputEnded = .ended →
      Serves t t.stopReading

/-- A step of the server is one of its moves. -/
theorem serves_of_stepServer (stepped : t.stepServer = some u) : Serves t u := by
  unfold stepServer at stepped
  split at stepped
  next => cases stepped
  next m server =>
    dsimp only at stepped
    split at stepped
    next inbox offered =>
      cases stepped
      exact .told server offered
    next gone =>
      cases stepped
      exact .refused server (Mailbox.offer_eq_gone.mp gone)
    next => cases stepped
  next server =>
    dsimp only at stepped
    split at stepped
    next cancelled =>
      cases stepped
      exact .cancelled server cancelled
    next cancelled =>
      have calm : t.session.cancelled = false := by simpa using cancelled
      split at stepped
      next o client taken =>
        unfold write at stepped
        split at stepped
        next there =>
          cases stepped
          exact .wrote server calm taken there
        next gone =>
          cases stepped
          exact .failed server calm taken (by simpa using gone)
      next nothing =>
        split at stepped
        next unused =>
          cases stepped
          exact .finished server calm nothing (by simpa using unused)
        split at stepped
        next held =>
          unfold readInput at stepped
          split at stepped
          next => cases stepped
          next broken =>
            cases stepped
            exact .stopped server held (.inl broken)
          next ended =>
            cases stepped
            exact .stopped server held (.inr ended)
          next text rest line =>
            have served := Serves.read server held line
            cases told : messageOfLine? text with
            | none =>
                rw [told] at stepped served
                cases stepped
                simpa only [Option.elim_none, ← server] using served
            | some m =>
                rw [told] at stepped served
                cases stepped
                exact served
        next => cases stepped

/-- Where the server stands still: it has ended, or it waits for room in the broker's mailbox,
or for an event and for input. -/
theorem stepServer_eq_none (stuck : t.stepServer = none) :
    t.serverEnded = true ∨ (∃ m, t.server = .forwarding m ∧ t.session.inbox.isFull = true) ∨
      (t.server = .serving ∧ t.session.cancelled = false ∧ t.session.client.next? = none ∧
        t.session.clientInUse = true ∧
        (t.session.handleHeld = false ∨ readLine t.unread t.inputEnded = .incomplete)) := by
  unfold stepServer at stuck
  split at stuck
  next ended => exact .inl (by simp [serverEnded, ended])
  next m server =>
    dsimp only at stuck
    split at stuck
    next => cases stuck
    next => cases stuck
    next full => exact .inr (.inl ⟨m, server, (Mailbox.offer_eq_full.mp full).2⟩)
  next server =>
    dsimp only at stuck
    split at stuck
    next => cases stuck
    next cancelled =>
      split at stuck
      next => cases stuck
      next nothing =>
        split at stuck
        next => cases stuck
        next used =>
          refine .inr (.inr ⟨server, by simpa using cancelled, nothing, by simpa using used, ?_⟩)
          split at stuck
          next =>
            right
            unfold readInput at stuck
            split at stuck <;> first | assumption | cases stuck
          next dropped => exact .inl (by simpa using dropped)

/-! ### The session behind the server -/

/-- A message is under way only while the server has the handle. -/
def Engaged (t : Transport) : Prop :=
  ∀ m, t.server = .forwarding m → t.session.handleHeld = true

/-- The server takes an event as a client does that reads. -/
theorem readClient_of_next {s : Session} {o : Outgoing} {client : Mailbox Outgoing}
    (taken : s.client.next? = some (o, client)) : s.readClient 1 = { s with client } := by
  have waiting := Mailbox.waiting_next taken
  obtain ⟨-, -, rfl⟩ := Mailbox.next?_eq_some taken
  simp only [Session.readClient, Mailbox.take, waiting, List.take_succ_cons, List.take_zero,
    List.length_singleton]

/-- What the server does to the session are moves of the session. -/
theorem Serves.session_run (h : Serves t u) (engaged : t.Engaged) :
    ∃ moves, u.session = t.session.run moves := by
  cases h with
  | @told m inbox server offered =>
      have sent : t.session.send m = .ok { t.session with inbox } := by
        rw [Session.send, if_pos (engaged m server), offered]
        rfl
      refine ⟨[.send m], ?_⟩
      simp only [Session.run, List.foldl_cons, List.foldl_nil, Session.apply, sent]
      rfl
  | refused | stopped => exact ⟨[.dropHandle], rfl⟩
  | cancelled | finished =>
      exact ⟨[.dropHandle, .closeClient], by simp [endServer, Session.run, Session.apply]⟩
  | wrote _ _ taken => exact ⟨[.readClient 1], (readClient_of_next taken).symm⟩
  | failed _ _ taken =>
      refine ⟨[.readClient 1, .dropHandle, .closeClient, .cancel], ?_⟩
      simp only [Session.run, List.foldl_cons, List.foldl_nil, Session.apply,
        readClient_of_next taken, endServer, Bool.or_true]
  | read => exact ⟨[], rfl⟩

/-- With a move of the server a message is under way only while it has the handle. -/
theorem Serves.engaged (h : Serves t u) : u.Engaged := by
  cases h with
  | wrote server =>
      intro m forwarding
      rw [server] at forwarding
      cases forwarding
  | read _ held => exact fun _ _ => held
  | _ => nofun

theorem apply_serve (t : Transport) : Serves t (t.apply .serve) ∨ t.apply .serve = t := by
  simp only [apply]
  cases stepped : t.stepServer with
  | none => exact .inr rfl
  | some u => exact .inl (serves_of_stepServer stepped)

/-- Whether a move can happen while the server is the only one to serve the client. -/
def Move.sparesServer : Move → Bool
  | .session m => m.sparesServer
  | _ => true

/-- Any move leaves a message under way only with the handle, and does to the session what moves of
the session do. -/
theorem Engaged.apply (engaged : t.Engaged) {m : Move} (spares : m.sparesServer = true) :
    (t.apply m).Engaged ∧ ∃ moves, (t.apply m).session = t.session.run moves := by
  cases m with
  | serve =>
      rcases t.apply_serve with serves | same
      · exact ⟨serves.engaged, serves.session_run engaged⟩
      · rw [same]
        exact ⟨engaged, [], rfl⟩
  | session m =>
      exact ⟨fun n server => (Session.spared_apply spares).handleHeld.trans (engaged n server),
        [m], rfl⟩
  | input bytes =>
      have same : (t.apply (.input bytes)).server = t.server ∧
          (t.apply (.input bytes)).session = t.session := by
        simp only [Transport.apply]
        split <;> exact ⟨rfl, rfl⟩
      exact ⟨fun n server => same.2 ▸ engaged n (same.1 ▸ server), [], same.2⟩
  | endInput | closeReader => exact ⟨engaged, [], rfl⟩

theorem run_append (t : Transport) (moves more : List Move) :
    t.run (moves ++ more) = (t.run moves).run more :=
  List.foldl_append

theorem run_concat (t : Transport) (moves : List Move) (m : Move) :
    t.run (moves ++ [m]) = (t.run moves).apply m :=
  t.run_append moves [m]

/-- Behind a server a session only makes moves of its own. -/
theorem session_run (s : Session) {moves : List Move}
    (spares : ∀ m ∈ moves, m.sparesServer = true) :
    ((ofSession s).run moves).Engaged ∧
      ∃ own, ((ofSession s).run moves).session = s.run own := by
  induction moves using List.reverseRecOn with
  | nil => exact ⟨nofun, [], rfl⟩
  | append_singleton moves m ih =>
      obtain ⟨others, last⟩ := List.forall_mem_append.mp spares
      obtain ⟨engaged, own, session⟩ := ih others
      obtain ⟨still, more, next⟩ := engaged.apply (last m (.head _))
      rw [run_concat]
      exact ⟨still, own ++ more, by rw [next, session, Session.run_append]⟩

end Transport

end SessionBroker
