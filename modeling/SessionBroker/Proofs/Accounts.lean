import SessionBroker.Proofs.Output

/-!
What becomes of every request.

An account notes what of a request was delivered to workers and which events the broker
produced because of it. `Session.Books` says that the accounts of all requests handled so far
explain everything that workers were given and everything that the broker wrote. Main
statement: `Books.kept`, every transition keeps the books; so every request has exactly one
fate.
-/

namespace SessionBroker

/-! ### Acts that are still to come -/

/-- The event that an act is certain to bring about. -/
def Act.event? : Act → Option Event
  | .reply e | .emit e => some e
  | .route r => r.shutdown?.map (Broker.farewell r.id)
  | _ => none

/-- The request that an act hands to its workers. -/
def Act.request? : Act → Option Request
  | .route r => if r.shutdown?.isNone then some r else none
  | _ => none

/-- The event that an act sends to the gate. -/
def Act.forGate? : Act → Option Event
  | .emit e => some e
  | _ => none

/-- The events that the broker produces because of a message that is no request. -/
def BrokerMessage.aside : BrokerMessage → List Event
  | .reject response => [.response response]
  | .indexed (.refreshed deleted inserted) => [.indexReady deleted inserted]
  | _ => []

/-- Acts that emit some events bring about these events and nothing else. -/
theorem acts_emit (es : List Event) (rest : List Act) :
    (es.map Act.emit ++ rest).filterMap Act.event? = es ++ rest.filterMap Act.event? ∧
      (es.map Act.emit ++ rest).filterMap Act.request? = rest.filterMap Act.request? ∧
      (es.map Act.emit ++ rest).findSome? Act.ending? = rest.findSome? Act.ending? := by
  induction es with
  | nil => exact ⟨rfl, rfl, rfl⟩
  | cons e es ih =>
      obtain ⟨events, requests, ending⟩ := ih
      exact ⟨congrArg (e :: ·) events, requests, ending⟩

/-- Acts that hand requests to workers bring about no event and no ending by themselves. -/
theorem acts_route {rs : List Request} (routable : ∀ r ∈ rs, r.Routable) (rest : List Act) :
    (rs.map Act.route ++ rest).filterMap Act.event? = rest.filterMap Act.event? ∧
      (rs.map Act.route ++ rest).filterMap Act.request? = rs ++ rest.filterMap Act.request? ∧
      (rs.map Act.route ++ rest).findSome? Act.ending? = rest.findSome? Act.ending? := by
  induction rs with
  | nil => exact ⟨rfl, rfl, rfl⟩
  | cons r rs ih =>
      obtain ⟨events, requests, ending⟩ := ih fun q mem => routable q (.tail _ mem)
      have staying : r.shutdown? = none := (routable r (.head _)).not_shutdown
      simp [Act.event?, Act.request?, Act.ending?, staying, events, requests,
        ending]

/-- What takes the place of a routed request makes it neither more nor less certain how the
session ends. -/
theorem ending_followUp (t : Topology) {r : Request} {rest : List Act} {c : Connection}
    (agenda : Agenda c (.route r :: rest)) :
    (Outlets.followUp r.id (t.dispatch r).2 ++ rest).findSome? Act.ending? =
      (Act.route r :: rest).findSome? Act.ending? := by
  have served (routable : r.Routable) :
      (Outlets.followUp r.id (t.dispatch r).2 ++ rest).findSome? Act.ending? =
        (Act.route r :: rest).findSome? Act.ending? := by
    obtain ⟨sent, es, -, followUp, -, -⟩ := t.dispatch_served routable
    rw [followUp, (acts_emit es rest).2.2]
    simp [Act.ending?, routable.not_shutdown]
  obtain ⟨-, ⟨rfl, other⟩ | ⟨routable, -⟩⟩ := agenda.of_route
  · rcases Request.routable_or_shutdown other with routable | ⟨params, data⟩
    · exact served routable
    · rw [t.dispatch_shutdown data, List.findSome?_cons, Act.ending?,
        Request.shutdown?_eq_some.mpr data]
      rfl
  · exact served routable

/-! ### Accounts -/

/-- What has become of a request so far. -/
structure Account where
  request : Request
  /-- The parts that were delivered to workers. -/
  delivered : List Delivery
  /-- The events that the broker produced because of the request. -/
  produced : List Event

/-- Whether the request is still to be handed to its workers. -/
def Account.isOpen (a : Account) : Bool :=
  a.delivered.isEmpty && a.produced.isEmpty && a.request.shutdown?.isNone

/-- Whether the request was turned away because there was no room for it. -/
def Account.isTurnedAway (a : Account) : Bool := a.produced = [Broker.turnedAway a.request.id]

/-- Whether the request was kept for its workers. -/
def Account.isKept (a : Account) : Bool :=
  !a.request.isHandshake && a.request.shutdown?.isNone && !a.isTurnedAway

inductive Fate where
  /-- A handshake that was answered. -/
  | greeted
  /-- A request for the end of the session. -/
  | ended
  | parked
  | turnedAway
  /-- At least a part was delivered. -/
  | delivered
  /-- No part was delivered. -/
  | refused
  deriving DecidableEq

namespace Session

/-- The requests that were handled but not yet handed to their workers, oldest first. -/
def waiting (s : Session) : List Request :=
  s.broker.parked ++ s.agenda.filterMap Act.request?

/-- The events that the broker is about to write. -/
def underway (s : Session) : List Event := s.agenda.filterMap Act.event?

end Session

/-- An account is that of a request with a certain fate. -/
inductive Account.Meets (c : Config) (s : Session) : Account → Fate → Prop
  | greeted {r : Request} : r.isHandshake = true → Meets c s ⟨r, [], [c.greeting r.id]⟩ .greeted
  /-- The session comes to its end; the end is acknowledged after the handshake only. -/
  | ended {r : Request} {params : ShutdownParams} : r.shutdown? = some params →
      s.decided = some (.exit (.requested params)) →
      Meets c s ⟨r, [], match s.broker.connection with
        | .active => [Broker.farewell r.id params]
        | .awaiting => []⟩ .ended
  | parked {r : Request} : r.Routable → Meets c s ⟨r, [], []⟩ .parked
  | turnedAway {r : Request} : r.Routable → Meets c s ⟨r, [], [Broker.turnedAway r.id]⟩ .turnedAway
  | delivered {r : Request} {sent : List Delivery} {out : List Event} : r.Routable → sent ≠ [] →
      Served s.topology.layout r sent out → Meets c s ⟨r, sent, out⟩ .delivered
  | refused {r : Request} {message : String} : r.Routable →
      Meets c s ⟨r, [], [.response (.failure r.id r.refusalCode message)]⟩ .refused

namespace Account

variable {c : Config} {s t : Session} {a : Account} {f g : Fate}

/-- The fate that an account tells of. -/
def fate (a : Account) : Fate :=
  if a.request.isHandshake then .greeted
  else if a.request.shutdown?.isSome then .ended
  else if a.isOpen then .parked
  else if !a.delivered.isEmpty then .delivered
  else if a.isTurnedAway then .turnedAway
  else .refused

/-- No refusal has the code of a request that was turned away. -/
theorem refusalCode_ne (r : Request) : r.refusalCode ≠ ErrorCode.notInitialized := by
  unfold Request.refusalCode
  split <;> decide

/-- A fate that fits an account is the one that the account tells of. -/
theorem Meets.fate_eq (meets : a.Meets c s f) : a.fate = f := by
  cases meets with
  | greeted handshake => simp [fate, handshake]
  | @ended r params ends =>
      have other : r.isHandshake = false := by
        cases handshake : r.isHandshake with
        | false => rfl
        | true => rw [Request.shutdown?_of_isHandshake handshake] at ends; cases ends
      simp [fate, other, ends]
  | parked routable =>
      simp [fate, isOpen, routable.not_handshake, routable.not_shutdown]
  | turnedAway routable =>
      simp [fate, isOpen, isTurnedAway, routable.not_handshake, routable.not_shutdown]
  | delivered routable some_ =>
      simp [fate, isOpen, routable.not_handshake, routable.not_shutdown, some_]
  | @refused r message routable =>
      simp [fate, isOpen, isTurnedAway, routable.not_handshake, routable.not_shutdown,
        Broker.turnedAway, Response.failure, refusalCode_ne]

/-- Nothing has two fates. -/
theorem Meets.unique (meets : a.Meets c s f) (too : a.Meets c s g) : g = f :=
  too.fate_eq.symm.trans meets.fate_eq

/-- A fate remains as long as a decision about the end does. -/
theorem Meets.kept (meets : a.Meets c s f) (layout : t.topology.layout = s.topology.layout)
    (decided : ∀ ending, s.decided = some ending →
      t.decided = some ending ∧ t.broker.connection = s.broker.connection) :
    a.Meets c t f := by
  cases meets with
  | greeted handshake => exact .greeted handshake
  | ended ends ending =>
      obtain ⟨stays, connection⟩ := decided _ ending
      rw [← connection]
      exact .ended ends stays
  | parked routable => exact .parked routable
  | turnedAway routable => exact .turnedAway routable
  | delivered routable some_ served => exact .delivered routable some_ (layout ▸ served)
  | refused routable => exact .refused routable

/-- A handshake is answered with the descriptor, whatever becomes of the session. -/
theorem Meets.produced_of_handshake (meets : a.Meets c s f)
    (handshake : a.request.isHandshake = true) : a.produced = [c.greeting a.request.id] := by
  have greeted : f = .greeted := by rw [← meets.fate_eq, fate, if_pos handshake]
  subst greeted
  cases meets
  rfl

end Account

/-! ### Turning away -/

/-- A request was turned away only before the handshake, and only when as many as possible
were kept already. -/
def FullBefore (n : Nat) (accounts : List Account) : Prop :=
  ∀ early a late, accounts = early ++ a :: late → a.isTurnedAway = true →
    (∀ b ∈ early, b.request.isHandshake = false) ∧ n ≤ (early.filter (·.isKept)).length

namespace FullBefore

variable {n : Nat} {accounts others early late : List Account} {a b : Account}

/-- One more account, perhaps of a request that was turned away. -/
theorem concat (full : FullBefore n accounts)
    (last : a.isTurnedAway = true → (∀ b ∈ accounts, b.request.isHandshake = false) ∧
      n ≤ (accounts.filter (·.isKept)).length) : FullBefore n (accounts ++ [a]) := by
  intro early x late split turned
  rcases List.eq_nil_or_concat late with rfl | ⟨others, y, rfl⟩
  · obtain ⟨rfl, same⟩ := List.append_inj' split rfl
    cases same
    exact last turned
  · rw [List.concat_eq_append, ← List.cons_append, ← List.append_assoc] at split
    exact full early x others (List.append_inj' split rfl).1 turned

/-- What happens to a request later does not matter. -/
theorem congr (full : FullBefore n accounts)
    (same : others.map (fun a => (a.request, a.isTurnedAway)) =
      accounts.map fun a => (a.request, a.isTurnedAway)) : FullBefore n others := by
  rintro early a late rfl turned
  rw [List.map_append, List.map_cons] at same
  obtain ⟨before, rest, rfl, first, second⟩ := List.map_eq_append_iff.mp same.symm
  obtain ⟨b, after, rfl, same, -⟩ := List.map_eq_cons_iff.mp second
  obtain ⟨-, too⟩ := Prod.mk.inj same
  obtain ⟨others, enough⟩ := full before b after rfl (too.trans turned)
  constructor
  · intro x mem
    obtain ⟨y, old, same⟩ := List.mem_map.mp (first ▸ List.mem_map_of_mem mem)
    rw [← (Prod.mk.inj same).1]
    exact others y old
  · have kept (l : List Account) : (l.filter (·.isKept)).length =
        (l.map fun a => (a.request, a.isTurnedAway)).countP fun x =>
          !x.1.isHandshake && x.1.shutdown?.isNone && !x.2 := by
      rw [List.countP_map, List.countP_eq_length_filter]
      rfl
    rwa [kept, ← first, ← kept]

/-- An account may be replaced by one of the same request as long as neither turns it away. -/
theorem replace (full : FullBefore n (early ++ a :: late)) (request : b.request = a.request)
    (first : a.isTurnedAway = false) (second : b.isTurnedAway = false) :
    FullBefore n (early ++ b :: late) :=
  full.congr (by simp [request, first, second])

end FullBefore

namespace Session

variable {allowed : Move → Prop} {c : Config} {s t : Session} {out more : List Event}

/-! ### Decisions -/

/-- A decision about the end is final: nothing is handled after it. -/
theorem decided_kept (orderly : s.Orderly) (h : Transition allowed s out t) {ending : Ending}
    (decided : s.decided = some ending) :
    t.decided = some ending ∧ t.handled = s.handled ∧
      t.broker.connection = s.broker.connection := by
  cases h with
  | reply phase =>
      simp only [Session.decided, phase] at decided
      exact ⟨decided, rfl, rfl⟩
  | emit phase =>
      simp only [Session.decided, phase] at decided
      exact ⟨decided, rfl, rfl⟩
  | activate phase =>
      simp only [Session.decided, phase] at decided
      exact ⟨decided, rfl, rfl⟩
  | route phase =>
      refine ⟨?_, rfl, rfl⟩
      simp only [Session.decided, phase] at decided
      exact (ending_followUp s.topology (orderly.agenda_of_phase phase)).trans decided
  | finish phase =>
      simp only [Session.decided, phase] at decided
      exact ⟨decided, rfl, rfl⟩
  | receive phase => simp [Session.decided, phase] at decided
  | background background =>
      have still := background.still orderly.sound
      exact ⟨still.decided _ decided, still.handled, still.connection⟩

/-! ### The books -/

/-- The accounts of all requests handled so far, in order. `initial` tells what the workers
had been given before, `out` is what the broker has written. -/
structure Books (c : Config) (initial : Worker → List Request) (s : Session) (out : List Event)
    (accounts : List Account) : Prop where
  requests : accounts.map (·.request) = s.handledRequests
  meets : ∀ a ∈ accounts, ∃ fate, a.Meets c s fate
  /-- The open accounts are those of the requests that wait. -/
  waiting : (accounts.filter (·.isOpen)).map (·.request) = s.waiting
  full : FullBefore c.session.maxPending.toNat accounts
  /-- Requests are handed to workers in the order in which they were handled. -/
  order : accounts.Pairwise fun a b => a.isOpen = true → b.delivered = []
  delivered : ∀ w, s.topology.requests w =
    initial w ++ accounts.flatMap fun a => partsFor w a.delivered
  produced : (out ++ s.underway).Perm
    (accounts.flatMap (·.produced) ++ s.handled.flatMap BrokerMessage.aside)

variable {initial : Worker → List Request} {accounts : List Account}

theorem Fresh.books (fresh : s.Fresh c) : Books c s.topology.requests s [] [] where
  requests := fresh.handledRequests.symm
  meets := by simp
  waiting := by simp [Session.waiting, fresh.parked, fresh.agenda]
  full := by simp [FullBefore]
  order := .nil
  delivered := by simp
  produced := by simp [underway, fresh.agenda, fresh.handled]

/-- Nothing is handled and nothing delivered; the broker may write what it was about to. -/
theorem Books.frame (books : Books c initial s out accounts) (handled : t.handled = s.handled)
    (waiting : t.waiting = s.waiting) (underway : more ++ t.underway = s.underway)
    (layout : t.topology.layout = s.topology.layout)
    (requests : ∀ w, t.topology.requests w = s.topology.requests w)
    (decided : ∀ ending, s.decided = some ending →
      t.decided = some ending ∧ t.broker.connection = s.broker.connection) :
    Books c initial t (out ++ more) accounts where
  requests := by rw [books.requests, handledRequests_congr handled]
  meets := fun a mem =>
    let ⟨fate, meets⟩ := books.meets a mem
    ⟨fate, meets.kept layout decided⟩
  waiting := by rw [books.waiting, waiting]
  full := books.full
  order := books.order
  delivered := fun w => by rw [requests w, books.delivered w]
  produced := by
    rw [List.append_assoc, underway, handled]
    exact books.produced

/-- When no request waits all accounts are closed. -/
theorem Books.closed (books : Books c initial s out accounts) (nobody : s.waiting = [])
    {a : Account} (mem : a ∈ accounts) : a.isOpen = false := by
  have open_ := books.waiting
  rw [nobody, List.map_eq_nil_iff, List.filter_eq_nil_iff] at open_
  simpa using open_ a mem

/-! ### Routing -/

/-- The request that has waited longest is the first one with an open account. -/
theorem Books.first_open (books : Books c initial s out accounts) {r : Request}
    {rest : List Request} (waiting : s.waiting = r :: rest) :
    ∃ early late, accounts = early ++ ⟨r, [], []⟩ :: late ∧
      (∀ a ∈ early, a.isOpen = false) ∧ (late.filter (·.isOpen)).map (·.request) = rest := by
  have opened := books.waiting
  rw [waiting, List.map_eq_cons_iff] at opened
  obtain ⟨a, others, filtered, rfl, rest⟩ := opened
  obtain ⟨early, late, split, closed, isOpen, filtered⟩ := List.filter_eq_cons_iff.mp filtered
  have empty : a = ⟨a.request, [], []⟩ := by
    obtain ⟨r, delivered, produced⟩ := a
    simp only [Account.isOpen, Bool.and_eq_true, List.isEmpty_iff] at isOpen
    obtain ⟨⟨rfl, rfl⟩, -⟩ := isOpen
    rfl
  rw [← empty]
  exact ⟨early, late, split, fun a mem => by simpa using closed a mem, by rw [filtered, rest]⟩

/-- A request that was routed has got its parts or an error. -/
theorem served_closed {layout : Layout} {r : Request} {sent : List Delivery} {es : List Event}
    (served : Served layout r sent es) : (⟨r, sent, es⟩ : Account).isOpen = false := by
  cases served with
  | whole _ some_ => simp [Account.isOpen, some_]
  | _ => simp [Account.isOpen]

/-- A request that was routed is not turned away any more. -/
theorem served_not_turnedAway {layout : Layout} {r : Request} {sent : List Delivery}
    {es : List Event} (served : Served layout r sent es) :
    (⟨r, sent, es⟩ : Account).isTurnedAway = false := by
  cases served with
  | refused code =>
      simp [Account.isTurnedAway, Broker.turnedAway, DispatchError.response, Response.failure, code,
        Account.refusalCode_ne]
  | first _ _ built | second _ _ built =>
      obtain ⟨params, rfl⟩ := exists_of_notification_ok built
      simp [Account.isTurnedAway, Broker.turnedAway]
  | _ => simp [Account.isTurnedAway]

/-- A request that was routed meets its fate: it was delivered or refused. -/
theorem served_meets {r : Request} {sent : List Delivery} {es : List Event} (routable : r.Routable)
    (served : Served s.topology.layout r sent es) :
    ∃ fate, Account.Meets c s ⟨r, sent, es⟩ fate := by
  by_cases none_ : sent = []
  · subst none_
    cases served with
    | whole _ some_ => exact absurd rfl some_
    | @refused e code =>
        refine ⟨.refused, ?_⟩
        rw [DispatchError.response, code]
        exact .refused routable
  · exact ⟨.delivered, .delivered routable none_ served⟩

/-- A waiting request is handed to its workers. -/
theorem Books.served (books : Books c initial s out accounts) {r : Request} {rest : List Request}
    (routable : r.Routable) (waiting : s.waiting = r :: rest) {sent : List Delivery}
    {es : List Event} (served : Served s.topology.layout r sent es)
    (handled : t.handled = s.handled) (left : t.waiting = rest)
    (underway : t.underway = es ++ s.underway)
    (layout : t.topology.layout = s.topology.layout)
    (log : ∀ w, t.topology.requests w = s.topology.requests w ++ partsFor w sent)
    (decided : ∀ ending, s.decided = some ending →
      t.decided = some ending ∧ t.broker.connection = s.broker.connection) :
    ∃ accounts, Books c initial t out accounts := by
  obtain ⟨early, late, rfl, closed, open_⟩ := books.first_open waiting
  have isOpen : (⟨r, [], []⟩ : Account).isOpen = true := by
    simp [Account.isOpen, routable.not_shutdown]
  obtain ⟨earlier, later, -⟩ := List.pairwise_append.mp books.order
  obtain ⟨undelivered, later⟩ := List.pairwise_cons.mp later
  refine ⟨early ++ ⟨r, sent, es⟩ :: late, ?_, ?_, ?_,
    books.full.replace rfl (by simp [Account.isTurnedAway]) (served_not_turnedAway served), ?_, ?_,
    ?_⟩
  · rw [handledRequests_congr handled]
    simpa using books.requests
  · intro a mem
    have kept (old : a ∈ early ++ ⟨r, [], []⟩ :: late) : ∃ fate, a.Meets c t fate := by
      obtain ⟨fate, meets⟩ := books.meets a old
      exact ⟨fate, meets.kept layout decided⟩
    rcases List.mem_append.mp mem with mem | mem
    · exact kept (List.mem_append_left _ mem)
    · rcases List.mem_cons.mp mem with rfl | mem
      · exact served_meets routable (layout ▸ served)
      · exact kept (List.mem_append_right _ (.tail _ mem))
  · have none_ : early.filter (·.isOpen) = [] := by simpa using closed
    rw [List.filter_append, none_, List.filter_cons_of_neg (by simp [served_closed served]), left]
    exact open_
  · refine List.pairwise_append.mpr ⟨earlier, ?_, ?_⟩
    · refine List.pairwise_cons.mpr ⟨?_, later⟩
      intro _ _ isOpen
      rw [served_closed served] at isOpen
      cases isOpen
    · intro a mem _ _ isOpen
      rw [closed a mem] at isOpen
      cases isOpen
  · intro w
    -- Nothing that was handled later has been delivered yet, so the order is that of the log.
    have nothing : late.flatMap (fun a => partsFor w a.delivered) = [] := by
      rw [List.flatMap_eq_nil_iff]
      intro a mem
      rw [undelivered a mem isOpen]
      rfl
    have nobody : partsFor w [] = [] := rfl
    rw [log w, books.delivered w]
    simp [nothing, nobody]
  · have produced := books.produced
    rw [underway, handled]
    simp only [List.flatMap_append, List.flatMap_cons, List.nil_append, List.append_assoc]
      at produced ⊢
    refine (List.perm_append_comm_assoc ..).trans ?_
    exact (produced.append_left es).trans (List.perm_append_comm_assoc ..)

/-- The next request of the agenda is routed. -/
theorem Books.route (books : Books c initial s out accounts) (orderly : s.Orderly) {r : Request}
    {rest : List Act} (phase : s.phase = .serving (.route r :: rest)) :
    ∃ accounts, Books c initial ({ s with topology := (s.topology.dispatch r).1 }.withAgenda
      (Outlets.followUp r.id (s.topology.dispatch r).2 ++ rest)) out accounts := by
  have agenda := agenda_of_phase phase
  have decided (ending : Ending) (known : s.decided = some ending) :=
    And.imp_right And.right
      (decided_kept orderly (Transition.route phase : Transition (fun _ => True) s [] _) known)
  obtain ⟨active, next⟩ := (orderly.agenda_of_phase phase).of_route
  have parked := orderly.active active
  have other : r.isHandshake = false := by
    rcases next with ⟨-, other⟩ | ⟨routable, -⟩
    · exact other
    · exact routable.not_handshake
  rcases Request.routable_or_shutdown other with routable | ⟨params, data⟩
  · obtain ⟨sent, es, served, followUp, layout, log⟩ := s.topology.dispatch_served routable
    rw [followUp] at decided ⊢
    obtain ⟨events, requests, -⟩ := acts_emit es rest
    have waiting : s.waiting = r :: rest.filterMap Act.request? := by
      simp [Session.waiting, parked, agenda, Act.request?, routable.not_shutdown]
    refine books.served routable waiting served rfl ?_ ?_ layout ?_ decided
    · change s.broker.parked ++ (es.map Act.emit ++ rest).filterMap Act.request? = _
      rw [parked, requests, List.nil_append]
    · change (es.map Act.emit ++ rest).filterMap Act.event? = _
      simp [events, underway, agenda, Act.event?, routable.not_shutdown]
    · intro w
      change ((s.topology.dispatch r).1.log w).filterMap WorkerMessage.request? = _
      rw [log w, List.filterMap_append]
      simp [Topology.requests, WorkerMessage.request?, List.filterMap_map, Function.comp_def]
  · have ends := Request.shutdown?_eq_some.mpr data
    rw [s.topology.dispatch_shutdown data] at decided ⊢
    refine ⟨accounts, List.append_nil out ▸ books.frame rfl ?_ ?_ rfl (fun _ => rfl) decided⟩
    · change s.broker.parked ++ _ = s.broker.parked ++ _
      simp [agenda, Outlets.followUp, List.filterMap_cons, Act.request?, ends]
    · simp [underway, agenda, Outlets.followUp, List.filterMap_cons, Act.event?, ends]

/-! ### Handling -/

/-- The answer to a handshake turns nobody away. -/
theorem not_turnedAway_greeting {r : Request} {id : String} :
    (⟨r, [], [c.greeting id]⟩ : Account).isTurnedAway = false := by
  simp [Account.isTurnedAway, Broker.turnedAway, Config.greeting, Response.failure]

/-- A farewell turns nobody away. -/
theorem not_turnedAway_farewell {r : Request} {id : String} {params : ShutdownParams} :
    (⟨r, [], [Broker.farewell id params]⟩ : Account).isTurnedAway = false := by
  simp [Account.isTurnedAway, Broker.turnedAway, Broker.farewell, Response.success,
    Response.failure]

/-- Handling a message opens the account of its request, if it is one. -/
theorem handles_account {b b' : Broker} {m : BrokerMessage} {acts : List Act}
    (told : ∀ id, b.greeting id = c.greeting id) (parked : ∀ r ∈ b.parked, r.Routable)
    (handles : b.Handles m b' acts) (phase : s.phase = .serving acts) (broker : s.broker = b') :
    ∃ new : List Account, new.map (·.request) = m.request?.toList ∧
      (∀ a ∈ new, a.delivered = [] ∧ (∃ fate, a.Meets c s fate) ∧ (a.isTurnedAway = true →
        b.connection = .awaiting ∧ b.maxParked ≤ b.parked.length)) ∧
      s.waiting = b.parked ++ (new.filter (·.isOpen)).map (·.request) ∧
      s.underway = new.flatMap (·.produced) ++ m.aside := by
  have agenda := agenda_of_phase phase
  have decided : s.decided = acts.findSome? Act.ending? := by simp [Session.decided, phase]
  unfold Session.waiting underway
  rw [agenda, broker]
  cases handles with
  | @leave r params awaiting data =>
      have ends := Request.shutdown?_eq_some.mpr data
      have meets : Account.Meets c s ⟨r, [], _⟩ .ended := .ended ends decided
      rw [broker, awaiting] at meets
      refine ⟨[⟨r, [], []⟩], rfl, ?_, ?_, rfl⟩
      · simpa [Account.isTurnedAway] using ⟨_, meets⟩
      · simp [Account.isOpen, ends, Act.request?]
  | @greet r awaiting handshake =>
      obtain ⟨events, requests, -⟩ := acts_route parked [.activate]
      have meets : Account.Meets c s ⟨r, [], _⟩ .greeted := .greeted handshake
      refine ⟨[⟨r, [], [c.greeting r.id]⟩], rfl, ?_, ?_, ?_⟩
      · simpa [not_turnedAway_greeting] using ⟨_, meets⟩
      · rw [List.filterMap_cons_none rfl, requests]
        simp [Account.isOpen, Act.request?]
      · change b.greeting r.id :: List.filterMap Act.event? _ = _
        rw [events, told]
        rfl
  | @turnAway r awaiting routable full =>
      have meets : Account.Meets c s ⟨r, [], _⟩ .turnedAway := .turnedAway routable
      refine ⟨[⟨r, [], [Broker.turnedAway r.id]⟩], rfl, ?_, ?_, rfl⟩
      · simpa using ⟨⟨_, meets⟩, fun _ => ⟨awaiting, full⟩⟩
      · simp [Account.isOpen, Act.request?]
  | @park r _ routable =>
      have meets : Account.Meets c s ⟨r, [], []⟩ .parked := .parked routable
      refine ⟨[⟨r, [], []⟩], rfl, ?_, ?_, rfl⟩
      · simpa [Account.isTurnedAway] using ⟨_, meets⟩
      · simp [Account.isOpen, routable.not_shutdown]
  | @greetAgain r _ handshake =>
      have meets : Account.Meets c s ⟨r, [], _⟩ .greeted := .greeted handshake
      refine ⟨[⟨r, [], [c.greeting r.id]⟩], rfl, ?_, ?_, ?_⟩
      · simpa [not_turnedAway_greeting] using ⟨_, meets⟩
      · simp [Account.isOpen, Act.request?]
      · simp [Act.event?, told, BrokerMessage.aside]
  | @route r isActive other =>
      rcases Request.routable_or_shutdown other with routable | ⟨params, data⟩
      · have meets : Account.Meets c s ⟨r, [], []⟩ .parked := .parked routable
        refine ⟨[⟨r, [], []⟩], rfl, ?_, ?_, ?_⟩
        · simpa [Account.isTurnedAway] using ⟨_, meets⟩
        · simp [Account.isOpen, routable.not_shutdown, Act.request?]
        · simp [Act.event?, routable.not_shutdown, BrokerMessage.aside]
      · have ends := Request.shutdown?_eq_some.mpr data
        have meets : Account.Meets c s ⟨r, [], _⟩ .ended :=
          .ended ends (decided.trans (by simp [Act.ending?, ends]))
        rw [broker, isActive] at meets
        refine ⟨[⟨r, [], [Broker.farewell r.id params]⟩], rfl, ?_, ?_, ?_⟩
        · simpa [not_turnedAway_farewell] using ⟨_, meets⟩
        · simp [Account.isOpen, Act.request?, ends]
        · simp [Act.event?, ends, BrokerMessage.aside]
  | _ => exact ⟨[], rfl, by simp, by simp [Act.request?], rfl⟩

/-- As many requests are kept as are open, and there is no handshake before the first. -/
theorem Books.kept_of_awaiting (books : Books c initial s out accounts) (told : s.Told c)
    (agenda : s.agenda = []) (awaiting : s.broker.connection = .awaiting)
    (full : s.broker.maxParked ≤ s.broker.parked.length) :
    (∀ a ∈ accounts, a.request.isHandshake = false) ∧
      c.session.maxPending.toNat ≤ (accounts.filter (·.isKept)).length := by
  have others : ∀ a ∈ accounts, a.request.isHandshake = false := by
    have none_ := told.none_of_awaiting (by simp [agenda]) awaiting
    intro a mem
    have handled : a.request ∈ s.handledRequests := books.requests ▸ List.mem_map_of_mem mem
    simpa using List.find?_eq_none.mp none_ a.request handled
  refine ⟨others, ?_⟩
  have open_ : s.broker.parked.length = (accounts.filter (·.isOpen)).length := by
    rw [← List.length_map (fun a : Account => a.request), books.waiting]
    simp [Session.waiting, agenda]
  rw [← told.maxParked, ← List.countP_eq_length_filter]
  rw [open_, ← List.countP_eq_length_filter] at full
  refine Nat.le_trans full (List.countP_mono_left ?_)
  intro a mem isOpen
  simp only [Account.isOpen, Bool.and_eq_true, List.isEmpty_iff] at isOpen
  simp [Account.isKept, Account.isTurnedAway, others a mem, isOpen]

/-- The broker handles a message. -/
theorem Books.receive (books : Books c initial s out accounts) (orderly : s.Orderly)
    (told : s.Told c) (phase : s.phase = .serving []) {m : BrokerMessage}
    {inbox : Mailbox BrokerMessage} (taken : s.inbox.next? = some (m, inbox)) :
    ∃ accounts, Books c initial ({ s with inbox, broker := (s.broker.handle s.now m).1 }.withAgenda
      (s.broker.handle s.now m).2) out accounts := by
  obtain ⟨new, request, meets, waiting, underway⟩ := handles_account
    (s := { s with inbox, broker := (s.broker.handle s.now m).1 }.withAgenda
      (s.broker.handle s.now m).2)
    told.greeting orderly.parked (s.broker.handles_handle s.now m) rfl rfl
  have agenda := agenda_of_phase phase
  have undecided : s.decided = none := by simp [Session.decided, phase]
  have single : new = [] ∨ ∃ a, new = [a] := by
    have short : new.length ≤ 1 := by
      rw [← List.length_map, request]
      cases m.request? <;> simp
    rcases new with _ | ⟨a, _ | ⟨b, others⟩⟩
    · exact .inl rfl
    · exact .inr ⟨a, rfl⟩
    · simp at short
  refine ⟨accounts ++ new, ?_, ?_, ?_, ?_, ?_, ?_, ?_⟩
  · rw [handledRequests_receive taken, List.map_append, books.requests, request]
  · intro a mem
    rcases List.mem_append.mp mem with old | isNew
    · obtain ⟨fate, meets⟩ := books.meets a old
      exact ⟨fate, meets.kept rfl (by simp [undecided])⟩
    · exact (meets a isNew).2.1
  · rw [List.filter_append, List.map_append, books.waiting, waiting]
    simp [Session.waiting, agenda]
  · rcases single with rfl | ⟨a, rfl⟩
    · rw [List.append_nil]
      exact books.full
    · refine books.full.concat ?_
      intro turned
      obtain ⟨awaiting, full⟩ := (meets a (.head _)).2.2 turned
      exact books.kept_of_awaiting told agenda awaiting full
  · refine List.pairwise_append.mpr ⟨books.order, ?_, fun a _ b isNew _ => (meets b isNew).1⟩
    rcases single with rfl | ⟨a, rfl⟩
    · exact .nil
    · exact List.pairwise_singleton ..
  · intro w
    have nothing : new.flatMap (fun a => partsFor w a.delivered) = [] := by
      rw [List.flatMap_eq_nil_iff]
      intro a isNew
      rw [(meets a isNew).1]
      rfl
    rw [List.flatMap_append, nothing, List.append_nil]
    exact books.delivered w
  · have produced := books.produced
    have handled : inbox.read = s.handled ++ [m] := Mailbox.read_next taken
    have nothing : s.underway = [] := by simp [Session.underway, agenda]
    rw [nothing, List.append_nil] at produced
    rw [underway]
    change (out ++ (_ ++ m.aside)).Perm (_ ++ inbox.read.flatMap BrokerMessage.aside)
    rw [handled, List.flatMap_append, List.flatMap_append, List.flatMap_singleton]
    simp only [List.append_assoc]
    refine (produced.append_right _).trans ?_
    rw [List.append_assoc]
    exact (List.perm_append_comm_assoc ..).append_left _

/-! ### Every transition -/

/-- Every transition keeps the books. -/
theorem Books.kept (books : Books c initial s out accounts) (orderly : s.Orderly)
    (told : s.Told c) (h : Transition allowed s more t) :
    ∃ accounts, Books c initial t (out ++ more) accounts := by
  have decided (ending : Ending) (known : s.decided = some ending) :
      t.decided = some ending ∧ t.broker.connection = s.broker.connection :=
    let ⟨stays, _, connection⟩ := decided_kept orderly h known
    ⟨stays, connection⟩
  -- An act that writes an event, or nothing, leaves the accounts as they are.
  have plain {a : Act} {rest : List Act} (phase : s.phase = .serving (a :: rest))
      (request : Act.request? a = none) (same : t.topology = s.topology)
      (broker : t.broker.parked = s.broker.parked) (handled : t.handled = s.handled)
      (agenda : t.agenda = rest) (wrote : a.event?.toList = more) :
      ∃ accounts, Books c initial t (out ++ more) accounts := by
    have before := agenda_of_phase phase
    refine ⟨accounts, books.frame handled ?_ ?_ (by rw [same]) (by simp [same]) decided⟩
    · simp [Session.waiting, broker, agenda, before, request]
    · rw [← wrote, underway, underway, agenda, before]
      cases event : a.event? <;> simp [event]
  cases h with
  | reply phase => exact plain phase rfl rfl rfl rfl rfl rfl
  | emit phase => exact plain phase rfl rfl rfl rfl rfl rfl
  | activate phase => exact plain phase rfl rfl rfl rfl rfl rfl
  | finish phase =>
      obtain rfl := (orderly.agenda_of_phase phase).of_finish
      exact plain phase rfl rfl rfl rfl rfl rfl
  | receive phase _ _ taken =>
      rw [List.append_nil]
      exact books.receive orderly told phase taken
  | background background =>
      have still := background.still orderly.sound
      refine ⟨accounts, books.frame still.handled ?_ ?_ still.layout still.requests decided⟩
      · rw [Session.waiting, Session.waiting, still.parked, still.agenda]
      · rw [underway, underway, still.agenda, List.nil_append]
  | @route r rest phase =>
      rw [List.append_nil]
      exact books.route orderly phase

/-- Whatever a fresh session has come to, there are books for it. -/
theorem Fresh.books_of_reaches (fresh : s.Fresh c) (h : Reaches allowed s out t) :
    ∃ accounts, Books c s.topology.requests t out accounts := by
  induction h with
  | refl => exact ⟨[], fresh.books⟩
  | tail first last ih =>
      obtain ⟨accounts, books⟩ := ih
      exact books.kept (fresh.orderly_of_reaches first) (fresh.told_of_reaches first) last

end Session

/-! ### Main statement -/

/-- The workers of a session that has just been started have been given nothing. -/
theorem requests_topology (f : Staffing) (w : Worker) : f.topology.requests w = [] := by
  simp only [Topology.requests, Topology.log, Topology.mailbox?, Staffing.topology,
    PerWorker.get_ofFn]
  split
  · cases f.sizes.get w <;> rfl
  · rfl

end SessionBroker
