import SessionBroker.Proofs.Calm
import SessionBroker.Proofs.EarlyReplies

/-!
Parking requests makes no difference.

`Topology.dispatchAll` routes requests one after the other, without any session.
`Session.InTurn` says that a session has done nothing else to its workers and to the gate,
whether it parked the requests first or routed them at once. Main statement:
`parking_transparent`, the position of the handshake among the requests does not matter.
-/

namespace SessionBroker

namespace Topology

/-- The events with which the broker answers a request that it routes. -/
def answers (t : Topology) (r : Request) : List Event :=
  (Outlets.followUp r.id (t.dispatch r).2).filterMap Act.event?

/-- Requests are routed one after the other: the workers after it, and all the answers. -/
def dispatchAll (t : Topology) : List Request → Topology × List Event
  | [] => (t, [])
  | r :: rs =>
    let (u, out) := (t.dispatch r).1.dispatchAll rs
    (u, t.answers r ++ out)

/-- The last of several requests is dispatched to what the others have left. -/
theorem dispatchAll_concat (t : Topology) (rs : List Request) (r : Request) :
    t.dispatchAll (rs ++ [r]) = (((t.dispatchAll rs).1.dispatch r).1,
      (t.dispatchAll rs).2 ++ (t.dispatchAll rs).1.answers r) := by
  induction rs generalizing t with
  | nil => simp [dispatchAll]
  | cons q rs ih => simp [dispatchAll, ih]

end Topology

/-! ### Requests that can be parked -/

/-- Requests with a handshake after the first `i` of them. -/
def greetedAt (handshake : Request) (i : Nat) (rs : List Request) : List Request :=
  rs.take i ++ handshake :: rs.drop i

/-- Without the handshake the requests are those among which it was put. -/
theorem filter_greetedAt {handshake : Request} (isHandshake : handshake.isHandshake = true)
    (i : Nat) {rs : List Request} (routable : ∀ r ∈ rs, r.Routable) :
    (greetedAt handshake i rs).filter (!·.isHandshake) = rs := by
  have all {l : List Request} (sub : l ⊆ rs) : l.filter (!·.isHandshake) = l := by
    rw [List.filter_eq_self]
    intro r mem
    simp [(routable r (sub mem)).not_handshake]
  rw [greetedAt, List.filter_append, List.filter_cons, all (List.take_subset i rs),
    all (List.drop_subset i rs), isHandshake]
  exact List.take_append_drop i rs

/-- The first handshake is the one that was put among the requests. -/
theorem firstHandshake?_greetedAt {handshake : Request}
    (isHandshake : handshake.isHandshake = true) (i : Nat) {rs : List Request}
    (routable : ∀ r ∈ rs, r.Routable) :
    firstHandshake? (greetedAt handshake i rs) = some handshake := by
  have none_ : firstHandshake? (rs.take i) = none := by
    refine List.find?_eq_none.mpr ?_
    intro r mem
    simp [(routable r (List.mem_of_mem_take mem)).not_handshake]
  rw [greetedAt, firstHandshake?_append_of_none none_]
  simp [firstHandshake?, isHandshake]

/-- The requests contain no request for the end of the session and at most one handshake,
which finds room for everything before it. -/
structure Parkable (room : Nat) (rs : List Request) : Prop where
  others : ∀ r ∈ rs, r.isHandshake = false → r.Routable
  once : rs.countP (·.isHandshake) ≤ 1
  room : ∀ early, early <+: rs → firstHandshake? early = none → early.length ≤ room

namespace Parkable

variable {room : Nat} {rs early : List Request} {r : Request}

/-- The first of some requests that can all be parked can be parked. -/
theorem of_prefix (parkable : Parkable room rs) (h : early <+: rs) : Parkable room early where
  others := fun r mem => parkable.others r (h.subset mem)
  once := Nat.le_trans h.sublist.countP_le parkable.once
  room := fun first ahead => parkable.room first (ahead.trans h)

/-- A handshake is put among requests that are none. -/
theorem of_greetedAt (routable : ∀ r ∈ rs, r.Routable) (handshake : r.isHandshake = true)
    {k : Nat} (fits : k ≤ room) : Parkable room (greetedAt r k rs) where
  others := by
    intro q mem other
    rcases List.mem_append.mp mem with before | later
    · exact routable q (List.mem_of_mem_take before)
    · rcases List.mem_cons.mp later with rfl | later
      · rw [handshake] at other
        cases other
      · exact routable q (List.mem_of_mem_drop later)
  once := by
    have none_ {l : List Request} (sub : l ⊆ rs) : l.countP (·.isHandshake) = 0 := by
      rw [List.countP_eq_zero]
      intro q mem
      simp [(routable q (sub mem)).not_handshake]
    rw [greetedAt, List.countP_append, List.countP_cons, none_ (List.take_subset k rs),
      none_ (List.drop_subset k rs)]
    split <;> decide
  room := by
    intro early ahead none_
    refine Nat.le_of_not_lt ?_
    intro long
    -- Otherwise the handshake would be among the early requests.
    have upTo : rs.take k ++ [r] <+: early := by
      refine List.prefix_of_prefix_length_le ⟨rs.drop k, by simp [greetedAt]⟩ ahead ?_
      simp only [List.length_append, List.length_take, List.length_singleton]
      omega
    have mem : r ∈ early := upTo.subset (by simp)
    have other := List.find?_eq_none.mp none_ r mem
    exact other handshake

end Parkable

/-! ### Quiet moves -/

namespace Move

/-- Whether a move sends a request or is one by which broker, gate and client go on by
themselves. -/
def isQuiet : Move → Bool
  | .send (.request _) => true
  | m => m.isWork

variable {m : Move}

theorem isQuiet_of_isWork (isWork : m.isWork = true) : m.isQuiet = true := by
  cases m with
  | send m => cases isWork
  | _ => exact isWork

theorem isCalm_of_isQuiet (isQuiet : m.isQuiet = true) : m.isCalm = true := by
  cases m with
  | send m =>
      cases m with
      | request r => rfl
      | _ => cases isQuiet
  | step task => rfl
  | readClient count => rfl
  | _ => cases isQuiet

theorem isEmit_of_isQuiet (isQuiet : m.isQuiet = true) : m.isEmit = false := by
  cases m with
  | emit w e => cases isQuiet
  | _ => rfl

end Move

/-! ### Requests routed in turn -/

theorem forGate_emit (es : List Event) (rest : List Act) :
    (es.map Act.emit ++ rest).filterMap Act.forGate? = es ++ rest.filterMap Act.forGate? := by
  induction es with
  | nil => rfl
  | cons e es ih => exact congrArg (e :: ·) ih

/-- A flush sends the gate nothing but the activation. -/
theorem forGate_route (rs : List Request) :
    (rs.map Act.route ++ [Act.activate]).filterMap Act.forGate? = [] := by
  induction rs with
  | nil => rfl
  | cons r rs ih => exact ih

namespace Session

variable {allowed : Move → Prop} {c : Config} {s t : Session} {out more : List Event}
  {initial : Topology} {done : List Request}

/-- The events that the broker is about to send to the gate. -/
def forGate (s : Session) : List Event := s.agenda.filterMap Act.forGate?

/-- The requests `done` have been routed one after the other, those that wait come next, and
that is all that happened to the workers and all that the broker told the gate. -/
structure InTurn (initial : Topology) (s : Session) (done : List Request) : Prop where
  requests : s.handledRequests.filter (!·.isHandshake) = done ++ s.waiting
  topology : s.topology = (initial.dispatchAll done).1
  answers : brokerEvents s.gate.inbox.accepted ++ s.forGate = (initial.dispatchAll done).2
  /-- Nothing ends the session. -/
  staying : ∀ a ∈ s.agenda, a.ending? = none

theorem Fresh.inTurn (fresh : s.Fresh c) : InTurn s.topology s [] where
  requests := by simp [fresh.handledRequests, Session.waiting, fresh.parked, fresh.agenda]
  topology := rfl
  answers := by
    rw [fresh.gate, forGate, fresh.agenda]
    rfl
  staying := by simp [fresh.agenda]

/-- Nothing is handled or routed; the gate may be sent what it was to be sent. -/
theorem InTurn.frame (inTurn : InTurn initial s done)
    (requests : t.handledRequests = s.handledRequests) (waiting : t.waiting = s.waiting)
    (topology : t.topology = s.topology)
    (answers : brokerEvents t.gate.inbox.accepted ++ t.forGate =
      brokerEvents s.gate.inbox.accepted ++ s.forGate)
    (agenda : t.agenda ⊆ s.agenda) : InTurn initial t done where
  requests := by rw [requests, waiting, inTurn.requests]
  topology := topology.trans inTurn.topology
  answers := answers.trans inTurn.answers
  staying := fun a mem => inTurn.staying a (agenda mem)

/-- The request that has waited longest is routed. -/
theorem InTurn.route (inTurn : InTurn initial s done) (orderly : s.Orderly) {r : Request}
    {rest : List Act} (phase : s.phase = .serving (.route r :: rest)) :
    InTurn initial ({ s with topology := (s.topology.dispatch r).1 }.withAgenda
      (Outlets.followUp r.id (s.topology.dispatch r).2 ++ rest)) (done ++ [r]) := by
  have agenda := agenda_of_phase phase
  obtain ⟨active, form⟩ := (orderly.agenda_of_phase phase).of_route
  have stays : r.shutdown? = none := by
    have none_ := inTurn.staying (.route r) (agenda ▸ .head _)
    simpa [Act.ending?] using none_
  have routable : r.Routable := by
    rcases form with ⟨-, other⟩ | ⟨routable, -⟩
    · rcases Request.routable_or_shutdown other with routable | ⟨params, data⟩
      · exact routable
      · rw [Request.shutdown?_eq_some.mpr data] at stays
        cases stays
    · exact routable
  have silent : rest.filterMap Act.forGate? = [] := by
    rcases form with ⟨rfl, -⟩ | ⟨-, rs, -, rfl⟩
    · rfl
    · exact forGate_route rs
  obtain ⟨sent, es, -, followUp, -, -⟩ := s.topology.dispatch_served routable
  have answers : s.topology.answers r = es := by
    have events := (acts_emit es []).1
    simpa [Topology.answers, followUp] using events
  have concat := initial.dispatchAll_concat done r
  rw [← inTurn.topology, ← inTurn.answers, answers] at concat
  rw [followUp]
  refine ⟨?_, ?_, ?_, ?_⟩
  · refine inTurn.requests.trans ?_
    change done ++ (s.broker.parked ++ s.agenda.filterMap Act.request?) = done ++ [r] ++
      (s.broker.parked ++ (es.map Act.emit ++ rest).filterMap Act.request?)
    rw [agenda, orderly.active active, (acts_emit es rest).2.1]
    simp [Act.request?, stays]
  · rw [concat]
    rfl
  · rw [concat]
    change brokerEvents s.gate.inbox.accepted ++ (es.map Act.emit ++ rest).filterMap Act.forGate? =
      _ ++ s.agenda.filterMap Act.forGate? ++ es
    have before : (Act.route r :: rest).filterMap Act.forGate? = [] := silent
    rw [forGate_emit, agenda, silent, before, List.append_nil, List.append_nil]
  · intro a mem
    rcases List.mem_append.mp mem with new | old
    · obtain ⟨e, -, rfl⟩ := List.mem_map.mp new
      rfl
    · exact inTurn.staying a (agenda ▸ .tail _ old)

/-- As long as there was no handshake there is room for one more request. -/
theorem InTurn.room (inTurn : InTurn initial s done) (told : s.Told c) (idle : s.agenda = [])
    (awaiting : s.broker.connection = .awaiting) {r : Request} (other : r.isHandshake = false)
    (parkable : Parkable c.session.maxPending.toNat (s.handledRequests ++ [r])) :
    s.broker.parked.length < s.broker.maxParked := by
  have none_ : firstHandshake? (s.handledRequests ++ [r]) = none := by
    rw [firstHandshake?_append_of_none (told.none_of_awaiting (by simp [idle]) awaiting)]
    simp [firstHandshake?, other]
  have fits := parkable.room _ (List.prefix_refl _) none_
  have fewer := List.length_filter_le (!·.isHandshake) s.handledRequests
  rw [inTurn.requests, Session.waiting, idle] at fewer
  simp only [List.filterMap_nil, List.length_append, List.length_nil] at fewer
  rw [List.length_append, List.length_singleton] at fits
  rw [told.maxParked]
  omega

/-- A request is handled: it is parked or about to be routed, or it is the handshake. -/
theorem InTurn.receive (inTurn : InTurn initial s done) (orderly : s.Orderly) (told : s.Told c)
    {r : Request} {inbox : Mailbox BrokerMessage} (idle : s.agenda = [])
    (taken : s.inbox.next? = some (.request r, inbox))
    (parkable : Parkable c.session.maxPending.toNat (s.handledRequests ++ [r])) :
    InTurn initial ({ s with inbox, broker := (s.broker.handle s.now (.request r)).1 }.withAgenda
      (s.broker.handle s.now (.request r)).2) done := by
  have handled := handledRequests_receive taken (s.broker.handle s.now (.request r)).1
    (s.broker.handle s.now (.request r)).2
  have handles := s.broker.handles_handle s.now (.request r)
  generalize (s.broker.handle s.now (.request r)).1 = broker at handled handles ⊢
  generalize (s.broker.handle s.now (.request r)).2 = acts at handled handles ⊢
  change _ = s.handledRequests ++ [r] at handled
  have waiting : s.waiting = s.broker.parked := by simp [Session.waiting, idle]
  have silent : s.forGate = [] := by simp [Session.forGate, idle]
  have inTurn_of (requests : (s.handledRequests ++ [r]).filter (!·.isHandshake) =
        done ++ (broker.parked ++ acts.filterMap Act.request?))
      (quiet : acts.filterMap Act.forGate? = []) (staying : ∀ a ∈ acts, a.ending? = none) :
      InTurn initial ({ s with inbox, broker }.withAgenda acts) done := by
    refine ⟨by rw [handled]; exact requests, inTurn.topology, ?_, staying⟩
    rw [← inTurn.answers, silent]
    exact congrArg _ quiet
  have routable (other : r.isHandshake = false) : r.Routable := parkable.others r (by simp) other
  have requests := inTurn.requests
  rw [waiting] at requests
  cases handles with
  | leave _ data =>
      have ends := Request.shutdown?_eq_some.mpr data
      rw [(routable (by simp [Request.isHandshake, data])).not_shutdown] at ends
      cases ends
  | greet _ handshake =>
      obtain ⟨-, routed, stays⟩ := acts_route orderly.parked [Act.activate]
      refine inTurn_of ?_ (forGate_route s.broker.parked) ?_
      · have none_ : [r].filter (!·.isHandshake) = [] := by simp [handshake]
        rw [List.filter_append, requests, none_, List.filterMap_cons_none rfl, routed]
        simp [Act.request?]
      · intro a mem
        rcases List.mem_cons.mp mem with rfl | mem
        · rfl
        · exact List.findSome?_eq_none_iff.mp stays a mem
  | turnAway awaiting routable full =>
      have room := inTurn.room told idle awaiting routable.not_handshake parkable
      exact absurd full (Nat.not_le_of_lt room)
  | park _ routable =>
      refine inTurn_of ?_ rfl (by simp)
      rw [List.filter_append, requests]
      simp [routable.not_handshake]
  | greetAgain active handshake =>
      obtain ⟨q, first, -⟩ := told.first_of_active (by simp [idle]) active
      have some_ : 0 < s.handledRequests.countP (·.isHandshake) :=
        List.countP_pos_iff.mpr ⟨q, List.mem_of_find?_eq_some first, List.find?_some first⟩
      have once := parkable.once
      rw [List.countP_append, List.countP_singleton, if_pos handshake] at once
      omega
  | route active other =>
      have stays := (routable other).not_shutdown
      refine inTurn_of ?_ rfl ?_
      · rw [List.filter_append, requests, orderly.active active]
        simp [other, Act.request?, stays]
      · intro a mem
        rw [List.mem_singleton.mp mem]
        simp [Act.ending?, stays]

/-- The broker tells the gate something. -/
theorem InTurn.tell (inTurn : InTurn initial s done) {a : Act} {rest : List Act}
    {m : GateMessage Outgoing} (phase : s.phase = .serving (a :: rest))
    (other : a.request? = none) (sends : brokerEvents [m] = a.forGate?.toList)
    (ready : s.gate.inbox.isReady = true) (isOpen : s.gate.inbox.isOpen = true) :
    InTurn initial ({ s with gate := { s.gate with
      inbox := Outlets.tell s.gate.inbox m } }.withAgenda rest) done := by
  have agenda := agenda_of_phase phase
  refine inTurn.frame rfl ?_ rfl ?_ (agenda ▸ List.subset_cons_self a rest)
  · change s.broker.parked ++ rest.filterMap Act.request? = _
    rw [Session.waiting, agenda, List.filterMap_cons, other]
  · change brokerEvents (Outlets.tell s.gate.inbox m).accepted ++ rest.filterMap Act.forGate? = _
    rw [Outlets.tell_eq_put ready isOpen, Mailbox.put_accepted, brokerEvents_append, sends,
      Session.forGate, agenda, List.append_assoc, List.filterMap_cons]
    cases a.forGate? <;> rfl

/-- Every transition of a calm session keeps to the order of the requests. -/
theorem InTurn.kept (inTurn : InTurn initial s done) (orderly : s.Orderly) (told : s.Told c)
    (output : s.Output out) (calm : s.Calm) (only : ∀ m, allowed m → m.isCalm = true)
    (h : Transition allowed s more t)
    (parkable : Parkable c.session.maxPending.toNat t.handledRequests) :
    ∃ done, InTurn initial t done := by
  cases h with
  | @reply e rest phase =>
      have agenda := agenda_of_phase phase
      refine ⟨done, inTurn.frame rfl ?_ rfl ?_ (agenda ▸ List.subset_cons_self _ rest)⟩
      · rw [Session.waiting, Session.waiting, agenda]
        rfl
      · rw [Session.forGate, Session.forGate, agenda]
        rfl
  | emit phase ready =>
      exact ⟨done, inTurn.tell phase rfl rfl ready (output.attended.isOpen phase calm.client)⟩
  | activate phase ready =>
      exact ⟨done, inTurn.tell phase rfl rfl ready (output.attended.isOpen phase calm.client)⟩
  | route phase => exact ⟨_, inTurn.route orderly phase⟩
  | @finish ending rest phase =>
      have stays := inTurn.staying (.finish ending) (agenda_of_phase phase ▸ .head _)
      cases stays
  | receive phase _ _ taken =>
      obtain ⟨r, rfl⟩ := calm.next taken
      rw [handledRequests_receive taken] at parkable
      exact ⟨done, inTurn.receive orderly told (agenda_of_phase phase) taken parkable⟩
  | background background =>
      have still := background.still orderly.sound
      have untroubled := calm.background only background
      refine ⟨done, inTurn.frame still.handledRequests ?_ untroubled.topology ?_ ?_⟩
      · rw [Session.waiting, still.parked, still.agenda, Session.waiting]
      · rw [brokerEvents_of_carried output.foreign background.carried, Session.forGate,
          still.agenda, Session.forGate]
      · rw [still.agenda]
        exact List.Subset.refl _

theorem Grown.handledRequests (grown : Grown s t) :
    s.handledRequests <+: t.handledRequests :=
  grown.handled.filterMap _

/-- Under calm moves the requests are routed in turn as long as all of them can be parked. -/
theorem Fresh.inTurn_of_reaches (fresh : s.Fresh c) (only : ∀ m, allowed m → m.isCalm = true)
    (h : Reaches allowed s out t)
    (parkable : Parkable c.session.maxPending.toNat t.handledRequests) :
    ∃ done, InTurn s.topology t done := by
  induction h with
  | refl => exact ⟨[], fresh.inTurn⟩
  | tail first last ih =>
      have orderly := fresh.orderly_of_reaches first
      obtain ⟨done, inTurn⟩ := ih (parkable.of_prefix (last.grown orderly).handledRequests)
      exact inTurn.kept orderly (fresh.told_of_reaches first) (fresh.output_of_reaches first)
        (fresh.calm_of_reaches only first) only last parkable

/-- At rest all requests but the handshake have been routed one after the other. -/
theorem Fresh.routed_of_reaches (fresh : s.Fresh c) (only : ∀ m, allowed m → m.isCalm = true)
    (h : Reaches allowed s out t) (rest : t.AtRest) {r : Request}
    (greeted : firstHandshake? t.handledRequests = some r)
    (parkable : Parkable c.session.maxPending.toNat t.handledRequests) :
    (t.topology, brokerEvents t.gate.inbox.accepted) =
      s.topology.dispatchAll (t.handledRequests.filter (!·.isHandshake)) := by
  obtain ⟨done, inTurn⟩ := fresh.inTurn_of_reaches only h parkable
  have active := (fresh.told_of_reaches h).active_of_first (by simp [rest.agenda]) greeted
  have nobody : t.waiting = [] := by
    simp [Session.waiting, (fresh.orderly_of_reaches h).active active, rest.agenda]
  have requests := inTurn.requests
  have answers := inTurn.answers
  rw [nobody, List.append_nil] at requests
  rw [Session.forGate, rest.agenda, List.filterMap_nil, List.append_nil] at answers
  rw [requests, inTurn.topology, answers]

/-! ### Serving requests one by one -/

/-- Calm moves do not end a session that serves. -/
theorem Serving.kept (serving : s.Serving) (inTurn : InTurn initial s done) (calm : s.Calm)
    (only : ∀ m, allowed m → m.isCalm = true) (held : ¬ allowed .dropHandle)
    (h : Transition allowed s more t) : t.Serving := by
  cases h with
  | @finish ending rest phase =>
      have stays := inTurn.staying (.finish ending) (agenda_of_phase phase ▸ .head _)
      cases stays
  | receive _ _ _ taken =>
      obtain ⟨-, -, rfl⟩ := Mailbox.next?_eq_some taken
      exact { serving with phase := ⟨_, rfl⟩ }
  | background background => exact (calm.background only background).serving held serving
  | _ => exact { serving with phase := ⟨_, rfl⟩ }

/-- Whatever calm moves make of a fresh session, it serves. -/
theorem Fresh.serving_of_reaches (fresh : s.Fresh c) (only : ∀ m, allowed m → m.isCalm = true)
    (held : ¬ allowed .dropHandle) (h : Reaches allowed s out t)
    (parkable : Parkable c.session.maxPending.toNat t.handledRequests) : t.Serving := by
  induction h with
  | refl => exact fresh.serving
  | tail first last ih =>
      have grown := last.grown (fresh.orderly_of_reaches first)
      have parkable := parkable.of_prefix grown.handledRequests
      obtain ⟨done, inTurn⟩ := fresh.inTurn_of_reaches only first parkable
      exact (ih parkable).kept inTurn (fresh.calm_of_reaches only first) only held last

/-- An idle broker handles the next message of its mailbox. -/
theorem step_broker_of_next (phase : s.phase = .serving []) (cancelled : s.cancelled = false)
    (due : s.recompileIfDue = none) {m : BrokerMessage} {inbox : Mailbox BrokerMessage}
    (taken : s.inbox.next? = some (m, inbox)) :
    s.step .broker = some ({ s with inbox, broker := (s.broker.handle s.now m).1 }.act
      (s.broker.handle s.now m).2) := by
  simp [Session.step, stepBroker, phase, cancelled, due, receive, taken]

/-- A request that is sent to an idle broker is the next one that it handles. -/
theorem Serving.next (serving : s.Serving) (calm : s.Calm) (orderly : s.Orderly)
    (idle : s.agenda = []) (empty : s.inbox.waiting = []) (r : Request) :
    ∃ t, (s.apply (.send (.request r))).step .broker = some t ∧ t.inbox.waiting = [] ∧
      t.handledRequests = s.handledRequests ++ [r] := by
  obtain ⟨acts, phase⟩ := serving.phase
  obtain rfl : acts = [] := (agenda_of_phase phase).symm.trans idle
  have room : s.inbox.isFull = false :=
    Mailbox.isFull_of_waiting (by rw [serving.capacity]; decide) empty
  have offered : s.inbox.offer (.request r) = .ok (s.inbox.put (.request r)) :=
    Mailbox.offer_eq_ok.mpr ⟨serving.isOpen, room, rfl⟩
  have sent : s.apply (.send (.request r)) = { s with inbox := s.inbox.put (.request r) } := by
    simp only [Session.apply, Session.send, serving.handleHeld, offered]
    rfl
  have waiting : (s.inbox.put (.request r)).waiting = [.request r] := by
    rw [orderly.sound.waiting_put serving.isOpen, empty, List.nil_append]
  obtain ⟨m, inbox, taken⟩ := Mailbox.next?_of_waiting (by rw [waiting]; simp)
  have first := Mailbox.waiting_next taken
  rw [waiting, List.cons.injEq] at first
  obtain ⟨rfl, none_⟩ := first
  have due : ({ s with inbox := s.inbox.put (.request r) } : Session).recompileIfDue = none := by
    simp [Session.recompileIfDue, Debouncer.poll, calm.window]
  obtain ⟨-, same, -⟩ := burden_act
    { s with inbox, broker := (s.broker.handle s.now (.request r)).1 }
    (s.broker.handle s.now (.request r)).2
  refine ⟨_, ?_, (congrArg Mailbox.waiting same).trans none_.symm, ?_⟩
  · rw [sent]
    exact step_broker_of_next (s := { s with inbox := s.inbox.put (.request r) }) phase
      calm.cancelled due taken
  · have read := Mailbox.read_next taken
    rw [orderly.sound.read_put] at read
    rw [Session.handledRequests, Session.handled, same, read, List.filterMap_append]
    rfl

/-- A session at rest serves some more requests and is at rest again. -/
theorem Fresh.serve (fresh : s.Fresh c) (room : 0 < s.client.capacity)
    (h : Reaches (·.isQuiet = true) s out t) (rest : t.AtRest) (empty : t.inbox.waiting = [])
    {rs : List Request} (parkable : Parkable c.session.maxPending.toNat (t.handledRequests ++ rs)) :
    ∃ moves, (∀ m ∈ moves, m.isQuiet = true) ∧ (t.run moves).AtRest ∧
      (t.run moves).handledRequests = t.handledRequests ++ rs := by
  have only : ∀ m : Move, m.isQuiet = true → m.isCalm = true := fun _ => Move.isCalm_of_isQuiet
  induction rs generalizing t out with
  | nil => exact ⟨[], by simp, rest, (List.append_nil _).symm⟩
  | cons r rs ih =>
      have serving := fresh.serving_of_reaches only nofun h
        (parkable.of_prefix (List.prefix_append _ _))
      obtain ⟨u, stepped, none_, handled⟩ := serving.next (fresh.calm_of_reaches only h)
        (fresh.orderly_of_reaches h) rest.agenda empty r
      -- The request is sent and handled.
      obtain ⟨out, sent⟩ := reaches_run (·.isQuiet = true) t [.send (.request r)]
        fun m mem _ => by rw [List.mem_singleton.mp mem]; rfl
      obtain ⟨more, next⟩ := reaches_step stepped
      have reached := (h.trans sent).trans next
      -- What follows from it is done before the next one is sent.
      obtain ⟨work, works, rested, inbox, -⟩ := fresh.drain room (fun _ => rfl) reached
        (fresh.calm_of_reaches only reached).client
      obtain ⟨new, drained⟩ := reaches_run (·.isQuiet = true) u work
        fun m mem _ => Move.isQuiet_of_isWork (works m mem)
      have same : (u.run work).handledRequests = t.handledRequests ++ [r] := by
        rw [← handled, Session.handledRequests, Session.handled, inbox]
        rfl
      obtain ⟨moves, quiet, last, all⟩ := ih (reached.trans drained) rested
        (by rw [inbox]; exact none_) (by rw [same]; simpa using parkable)
      have run : t.run (.send (.request r) :: .step .broker :: (work ++ moves)) =
          (u.run work).run moves := by
        change (((t.apply (.send (.request r))).step .broker).getD _).run (work ++ moves) = _
        rw [stepped]
        exact List.foldl_append
      refine ⟨.send (.request r) :: .step .broker :: (work ++ moves), ?_, ?_⟩
      · simp only [List.mem_cons, List.mem_append]
        rintro m (rfl | rfl | mem | mem)
        · rfl
        · rfl
        · exact Move.isQuiet_of_isWork (works m mem)
        · exact quiet m mem
      · rw [run]
        exact ⟨last, by rw [all, same]; simp⟩

/-! ### What comes out of it -/

/-- Some moves during which a session gets the given requests, and nothing else happens to it;
afterwards it is at rest. -/
structure Serves (s : Session) (requests : List Request) (moves : List Move) : Prop where
  calm : ∀ m ∈ moves, m.isCalm = true
  handled : (s.run moves).handledRequests = requests
  rest : (s.run moves).AtRest

/-- As long as no worker emits, the gate has only events of the broker. -/
theorem Hushed.events_eq (hushed : s.Hushed) :
    Gate.events s.gate.inbox.accepted =
      (brokerEvents s.gate.inbox.accepted).map Outgoing.ofBroker := by
  have own {os : List Outgoing} (log : ∀ o ∈ os, o.origin = .broker) :
      os = (os.filterMap Outgoing.ofBroker?).map Outgoing.ofBroker := by
    induction os with
    | nil => rfl
    | cons o os ih =>
        obtain ⟨origin, e⟩ := o
        obtain rfl : origin = .broker := log _ (.head _)
        exact congrArg (_ :: ·) (ih fun p mem => log p (.tail _ mem))
  exact own hushed.log

/-- Serving requests is routing them one after the other: the workers end up the same, and the
client gets the reply to the handshake and then the answers. -/
theorem Serves.outcome (fresh : s.Fresh c) {requests : List Request} {moves : List Move}
    (serves : s.Serves requests moves) {r : Request} (greeted : firstHandshake? requests = some r)
    (parkable : Parkable c.session.maxPending.toNat requests)
    (fits : (Gate.before (s.run moves).gate.inbox.accepted).length ≤
      c.session.maxBufferedEvents.toNat) :
    (s.run moves).topology = (s.topology.dispatchAll (requests.filter (!·.isHandshake))).1 ∧
    (s.run moves).client.accepted.filterMap Outgoing.ofBroker? =
      c.greeting r.id :: (s.topology.dispatchAll (requests.filter (!·.isHandshake))).2 ∧
    ((∀ m ∈ moves, m.isEmit = false) → (s.run moves).client.accepted =
      (c.greeting r.id ::
        (s.topology.dispatchAll (requests.filter (!·.isHandshake))).2).map Outgoing.ofBroker) := by
  obtain ⟨calm, handled, rest⟩ := serves
  obtain ⟨out, reached⟩ := reaches_run (·.isCalm = true) s moves fun m mem _ => calm m mem
  rw [← handled] at greeted parkable
  have routed := fresh.routed_of_reaches (fun _ => id) reached rest greeted parkable
  have there := (fresh.calm_of_reaches (fun _ => id) reached).client
  obtain ⟨opened, received⟩ := fresh.received_of_reaches reached rest there greeted
  rw [List.take_of_length_le fits, ← Gate.events_of_opened opened] at received
  rw [handled] at routed
  rw [← routed, received]
  refine ⟨rfl, rfl, ?_⟩
  intro silent
  obtain ⟨out, hushed⟩ := reaches_run (fun m => m.isCalm = true ∧ m.isEmit = false) s moves
    fun m mem _ => ⟨calm m mem, silent m mem⟩
  have hushed := fresh.hushed_of_reaches (fun _ => And.left) (by simp [Move.isEmit]) hushed
  rw [hushed.events_eq]
  rfl

end Session

/-! ### Main statement -/

open Session in
/-- **Parking is transparent.** Whatever the workers and what is in their mailboxes, a session
can serve the requests with the handshake at any position at which those before it can be
parked. And for every two such positions the sessions put the same messages into the mailbox of
every worker and give the client the same events of the broker, if the gate could hold all
events that came before its activation: those of routing the requests one after the other,
behind the reply to the handshake. If no worker emits these are all events. -/
theorem parking_transparent {c : Config} {f : Staffing} {search files : Behaviour} {size : Nat}
    {s : Session} (started : start c f search files size = .ok s) (room : 0 < size)
    (workers : Topology) {rs : List Request} (routable : ∀ r ∈ rs, r.Routable)
    {handshake : Request} (isHandshake : handshake.isHandshake = true) :
    (∀ i ≤ c.session.maxPending.toNat, ∃ moves, (∀ m ∈ moves, m.isEmit = false) ∧
      Serves { s with topology := workers } (greetedAt handshake i rs) moves) ∧
    ∀ i ≤ c.session.maxPending.toNat, ∀ j ≤ c.session.maxPending.toNat, ∀ first second t u,
      Serves { s with topology := workers } (greetedAt handshake i rs) first →
      Serves { s with topology := workers } (greetedAt handshake j rs) second →
      run { s with topology := workers } first = t →
      run { s with topology := workers } second = u →
      (Gate.before t.gate.inbox.accepted).length ≤ c.session.maxBufferedEvents.toNat →
      (Gate.before u.gate.inbox.accepted).length ≤ c.session.maxBufferedEvents.toNat →
        t.topology = u.topology ∧ t.topology = (workers.dispatchAll rs).1 ∧
        t.client.accepted.filterMap Outgoing.ofBroker? =
          u.client.accepted.filterMap Outgoing.ofBroker? ∧
        t.client.accepted.filterMap Outgoing.ofBroker? =
          c.greeting handshake.id :: (workers.dispatchAll rs).2 ∧
        ((∀ m ∈ first ++ second, m.isEmit = false) → t.client.accepted = u.client.accepted) := by
  obtain ⟨fresh, -, client⟩ := start_eq_ok started
  have fresh := fresh.withTopology workers
  have parkable {i : Nat} (fits : i ≤ c.session.maxPending.toNat) :
      Parkable c.session.maxPending.toNat (greetedAt handshake i rs) :=
    Parkable.of_greetedAt routable isHandshake fits
  constructor
  · intro i fits
    have capacity : 0 < s.client.capacity := by
      rw [client]
      exact room
    have idle : AtRest { s with topology := workers } :=
      ⟨fresh.agenda, by rw [fresh.gate]; rfl, by rw [fresh.gate]; rfl, by rw [client]; rfl⟩
    have handled := fresh.handledRequests
    obtain ⟨moves, quiet, rest, all⟩ := fresh.serve capacity .refl idle
      (by rw [fresh.inbox]; rfl) (by rw [handled]; exact parkable fits)
    rw [handled, List.nil_append] at all
    exact ⟨moves, fun m mem => Move.isEmit_of_isQuiet (quiet m mem),
      fun m mem => Move.isCalm_of_isQuiet (quiet m mem), all, rest⟩
  · rintro i iFits j jFits first second t u one two rfl rfl oneHeld twoHeld
    obtain ⟨topology, events, all⟩ := one.outcome fresh
      (firstHandshake?_greetedAt isHandshake i routable) (parkable iFits) oneHeld
    obtain ⟨topology', events', all'⟩ := two.outcome fresh
      (firstHandshake?_greetedAt isHandshake j routable) (parkable jFits) twoHeld
    rw [filter_greetedAt isHandshake _ routable] at topology events all topology' events' all'
    refine ⟨topology.trans topology'.symm, topology, events.trans events'.symm, events, ?_⟩
    intro silent
    exact (all fun m mem => silent m (List.mem_append_left _ mem)).trans
      (all' fun m mem => silent m (List.mem_append_right _ mem)).symm

open Session in
/-- Two searches find the indexer with room for one and nobody runs that could look up the
docs, with the handshake after the searches as well as before them. -/
theorem parking_transparent_of_searches :
    ∃ (s : Session) (workers : Topology) (rs : List Request) (handshake : Request)
        (first second : List Move),
      start .default ⟨.javaOnly, .replicate none⟩ .hangs .hangs 4 = .ok s ∧
      workers = ⟨.javaOnly, .ofFn fun w =>
        if w = .indexer then some ⟨2, [.recompile], 0, true⟩ else none⟩ ∧
      rs = [⟨"1", .search ⟨"x", none⟩⟩, ⟨"2", .search ⟨"y", none⟩⟩, ⟨"3", .docs ⟨"z"⟩⟩] ∧
      handshake = ⟨"0", .handshake ⟨none, none, none⟩⟩ ∧
      first = [.send (.request ⟨"1", .search ⟨"x", none⟩⟩), .step .broker,
        .send (.request ⟨"2", .search ⟨"y", none⟩⟩), .step .broker,
        .send (.request handshake), .step .broker,
        .send (.request ⟨"3", .docs ⟨"z"⟩⟩), .step .broker,
        .step .gate, .step .gate, .step .gate, .step .gate, .step .gate, .readClient 3] ∧
      second = [.send (.request handshake), .step .broker, .step .gate,
        .send (.request ⟨"1", .search ⟨"x", none⟩⟩), .step .broker,
        .send (.request ⟨"2", .search ⟨"y", none⟩⟩), .step .broker, .step .gate, .step .gate,
        .send (.request ⟨"3", .docs ⟨"z"⟩⟩), .step .broker, .step .gate, .step .gate,
        .readClient 3] ∧
      (∀ r ∈ rs, r.Routable) ∧ handshake.isHandshake = true ∧
      Serves { s with topology := workers } (greetedAt handshake 2 rs) first ∧
      Serves { s with topology := workers } (greetedAt handshake 0 rs) second ∧
      ∃ t u, run { s with topology := workers } first = t ∧
        run { s with topology := workers } second = u ∧
        (Gate.before t.gate.inbox.accepted).length ≤
          Config.default.session.maxBufferedEvents.toNat ∧
        (Gate.before u.gate.inbox.accepted).length ≤
          Config.default.session.maxBufferedEvents.toNat ∧
        (∀ m ∈ first ++ second, m.isEmit = false) ∧
        t.topology = u.topology ∧ t.topology = (workers.dispatchAll rs).1 ∧
        t.client.accepted.filterMap Outgoing.ofBroker? =
          u.client.accepted.filterMap Outgoing.ofBroker? ∧
        t.client.accepted.filterMap Outgoing.ofBroker? =
          Config.default.greeting handshake.id :: (workers.dispatchAll rs).2 ∧
        ((∀ m ∈ first ++ second, m.isEmit = false) → t.client.accepted = u.client.accepted) := by
  have routable : ∀ r ∈ [(⟨"1", .search ⟨"x", none⟩⟩ : Request), ⟨"2", .search ⟨"y", none⟩⟩,
      ⟨"3", .docs ⟨"z"⟩⟩], r.Routable := by simp [Request.Routable]
  have started : start .default ⟨.javaOnly, .replicate none⟩ .hangs .hangs 4 = .ok _ :=
    start_of_isSome (by decide +kernel)
  refine ⟨_, _, _, _, _, _, started, rfl, rfl, rfl, rfl, rfl, routable, rfl, ?_⟩
  have both := (parking_transparent started (by decide)
    ⟨.javaOnly, .ofFn fun w => if w = .indexer then some ⟨2, [.recompile], 0, true⟩ else none⟩
    routable (rfl : Request.isHandshake ⟨"0", .handshake ⟨none, none, none⟩⟩ = true)).2
    2 (by decide) 0 (by decide)
  exact (fun one two held held' =>
      ⟨one, two, _, _, rfl, rfl, held, held', by decide,
        both _ _ _ _ one two rfl rfl held held'⟩)
    ⟨by decide, by decide +kernel, by decide +kernel, by decide +kernel, by decide +kernel,
      by decide +kernel⟩
    ⟨by decide, by decide +kernel, by decide +kernel, by decide +kernel, by decide +kernel,
      by decide +kernel⟩
    (by decide +kernel) (by decide +kernel)

end SessionBroker
