import Mathlib.Data.List.Basic
import Mathlib.Data.List.Flatten
import SessionBroker.Proofs.Flush
import SessionBroker.Proofs.Intake

/-!
The order in which workers are given requests.

The requests that the client sends are handled in that order; those that are not turned away
are routed in that order, each once (`Fresh.routed_of_does`); and a worker is given its part of
each of them when it is routed, unless it refuses (`Fresh.requests_of_does`). Main statement:
`worker_requests_in_order`.
-/

namespace SessionBroker

/-- What a worker is given by an act that was carried out: its part of a request that is
routed, unless it refuses. -/
def Deed.given (d : Deed) (w : Worker) : List Request :=
  match d.act with
  | .route r => if (d.workers.refusal? w).isNone then partOf d.workers.layout w r else []
  | _ => []

/-- The requests that are turned away: before the handshake, when there is no room left. -/
def Config.turnedAway (c : Config) (rs : List Request) : List Request :=
  ((rs.takeWhile (!·.isHandshake)).filter (·.isRoutable)).drop c.session.maxPending.toNat

/-- The replies to the requests that are turned away. -/
def Config.dismissals (c : Config) (rs : List Request) : List Act :=
  (c.turnedAway rs).map fun r => .emit (Broker.turnedAway r.id)

/-! ### Requests on the course -/

section Requests

variable {c : Config} {rs : List Request} {first r : Request}

/-- A request that can be handed to workers is admitted or turned away. -/
theorem admitted_or_turnedAway (c : Config) (mem : r ∈ rs) (routable : r.Routable) :
    r ∈ c.admitted rs ∨ r ∈ c.turnedAway rs := by
  have kept := Request.isRoutable_iff.mpr routable
  rw [← List.takeWhile_append_dropWhile (p := (!·.isHandshake)) (l := rs)] at mem
  rcases List.mem_append.mp mem with early | late
  · have parkable := List.mem_filter.mpr ⟨early, kept⟩
    rw [← List.take_append_drop c.session.maxPending.toNat (List.filter _ _)] at parkable
    exact (List.mem_append.mp parkable).imp_left (List.mem_append_left _)
  · exact .inl (List.mem_append_right _ (List.mem_filter.mpr ⟨late, kept⟩))

/-- Requests are admitted in the order in which they were sent. -/
theorem admitted_sublist (c : Config) (rs : List Request) : (c.admitted rs).Sublist rs := by
  conv => rhs; rw [← List.takeWhile_append_dropWhile (p := (!·.isHandshake)) (l := rs)]
  exact ((List.take_sublist _ _).trans List.filter_sublist).append List.filter_sublist

/-- Before the handshake those are admitted that are parked. -/
theorem admitted_of_none (none_ : firstHandshake? rs = none) :
    c.admitted rs = parkedOf c.session.maxPending.toNat rs := by
  rw [Config.admitted, (split_of_none none_).1, (split_of_none none_).2, List.filter_nil,
    List.append_nil]

/-- Routing acts hold the requests that do not end the session. -/
theorem requests_route (rs : List Request) :
    (rs.map Act.route).filterMap Act.request? = rs.filter (·.shutdown?.isNone) := by
  induction rs with
  | nil => rfl
  | cons r rs ih =>
      rw [List.map_cons, List.filterMap_cons, List.filter_cons, ih, Act.request?]
      cases r.shutdown? <;> rfl

/-- Every request that is routed is on the course. -/
theorem requests_control (acts : List Act) :
    (acts.filter (·.isControl)).filterMap Act.request? = acts.filterMap Act.request? := by
  rw [List.filterMap_filter]
  refine congrArg (List.filterMap · acts) (funext fun a => ?_)
  cases a <;> rfl

/-- The requests on the course are those that are admitted. -/
theorem requests_course (some_ : firstHandshake? rs = some first) :
    (c.course rs).filterMap Act.request? = c.admitted rs := by
  obtain ⟨-, later, after, -⟩ := split_of_some [] some_
  have greeted : first.isRoutable = false := by
    rw [Request.isRoutable, List.find?_some some_]
    rfl
  have early : (parkedOf c.session.maxPending.toNat (rs.takeWhile (!·.isHandshake))).filter
      (·.shutdown?.isNone) =
        parkedOf c.session.maxPending.toNat (rs.takeWhile (!·.isHandshake)) :=
    List.filter_eq_self.mpr fun r mem => by
      rw [(routable_of_mem_parkedOf mem).not_shutdown]
      rfl
  have late : (later.filter (!·.isHandshake)).filter (·.shutdown?.isNone) =
      later.filter (·.isRoutable) := by
    rw [List.filter_filter]
    exact List.filter_congr fun r _ => Bool.and_comm ..
  simp only [Config.course, Config.admitted, after, List.filterMap_cons, List.filterMap_append,
    requests_route, early, late, Act.request?, List.filter_cons, greeted]
  rfl

/-! ### Requests that are turned away -/

theorem dismissals_concat_of_some (some_ : firstHandshake? rs = some first) :
    c.dismissals (rs ++ [r]) = c.dismissals rs := by
  rw [Config.dismissals, Config.turnedAway, (split_of_some [r] some_).1]
  rfl

theorem dismissals_concat_handshake (none_ : firstHandshake? rs = none)
    (handshake : r.isHandshake = true) : c.dismissals (rs ++ [r]) = c.dismissals rs := by
  have others : ∀ q ∈ rs, (!q.isHandshake) = true := fun q mem => by
    simpa using List.find?_eq_none.mp none_ q mem
  rw [Config.dismissals, Config.turnedAway, List.takeWhile_append_of_pos others]
  simp [handshake, Config.dismissals, Config.turnedAway, (split_of_none none_).1]

/-- Before the handshake a request is turned away if the parking is full. -/
theorem dismissals_concat (none_ : firstHandshake? rs = none) (other : r.isHandshake = false) :
    c.dismissals (rs ++ [r]) =
      ((rs.filter (·.isRoutable) ++ [r].filter (·.isRoutable)).drop
        c.session.maxPending.toNat).map fun r => .emit (Broker.turnedAway r.id) := by
  have still : firstHandshake? (rs ++ [r]) = none := by
    rw [firstHandshake?_append_of_none none_]
    simp [firstHandshake?, other]
  rw [Config.dismissals, Config.turnedAway, (split_of_none still).1, List.filter_append]

theorem dismissals_of_none (none_ : firstHandshake? rs = none) :
    c.dismissals rs = ((rs.filter (·.isRoutable)).drop c.session.maxPending.toNat).map
      fun r => .emit (Broker.turnedAway r.id) := by
  rw [Config.dismissals, Config.turnedAway, (split_of_none none_).1]

end Requests

namespace Session

variable {allowed : Move → Prop} {c : Config} {s t : Session} {deeds : List Deed}

/-! ### Every request is routed once -/

/-- Requests are routed in the order in which they are handled, all those that are admitted. -/
theorem Fresh.routed_of_does (fresh : s.Fresh c) (h : Does allowed s deeds t) :
    deeds.filterMap (·.act.request?) ++ t.waiting = c.admitted t.handledRequests := by
  obtain ⟨out, reached⟩ := h.reaches
  have orderly := fresh.orderly_of_reaches reached
  have first := (fresh.told_of_reaches reached).first_iff orderly
  have done : (deeds.map (·.act)).filterMap Act.request? ++ t.agenda.filterMap Act.request? =
      (c.course t.handledRequests).filterMap Act.request? := by
    rw [← fresh.onCourse_of_does h, requests_control, List.filterMap_append]
  rw [List.filterMap_map] at done
  change deeds.filterMap (·.act.request?) ++ _ = _ at done
  rw [Session.waiting]
  cases connection : t.broker.connection with
  | awaiting =>
      have none_ := first.mp connection
      rw [course_of_none none_, List.filterMap_nil, List.append_eq_nil_iff] at done
      rw [done.1, done.2, List.nil_append, List.append_nil, admitted_of_none none_]
      exact fresh.queued_of_reaches reached connection
  | active =>
      rw [orderly.active connection, List.nil_append, done]
      cases some_ : firstHandshake? t.handledRequests with
      | none =>
          rw [first.mpr some_] at connection
          cases connection
      | some r => exact requests_course some_

/-! ### Every dismissal is told -/

/-- Every request that was turned away has been answered so, or is about to be. -/
def Dismissed (c : Config) (s : Session) (acts : List Act) : Prop :=
  (c.dismissals s.handledRequests).Sublist (acts ++ s.agenda)

/-- A dismissal that is carried out has been told. -/
theorem Dismissed.carry {acts : List Act} (dismissed : s.Dismissed c acts) (orderly : s.Orderly)
    {a : Act} (h : Carries s a t) : t.Dismissed c (acts ++ [a]) := by
  unfold Dismissed at dismissed ⊢
  cases h with
  | finish phase =>
      obtain rfl := (orderly.agenda_of_phase phase).of_finish
      rw [agenda_of_phase phase] at dismissed
      rw [List.append_assoc]
      exact dismissed
  | @act a rest phase =>
      rw [agenda_of_phase phase] at dismissed
      rw [agenda_withAgenda, List.append_assoc]
      exact dismissed.trans (((List.sublist_append_right _ _).cons_cons a).append_left acts)

/-- A message that is taken is answered by a dismissal if it has to be. -/
theorem Dismissed.receive {acts : List Act} (dismissed : s.Dismissed c acts)
    (orderly : s.Orderly) (told : s.Told c) (queued : s.Queued c) (phase : s.phase = .serving [])
    {m : BrokerMessage} {inbox : Mailbox BrokerMessage}
    (taken : s.inbox.next? = some (m, inbox)) :
    ({ s with inbox, broker := (s.broker.handle s.now m).1 }.withAgenda
      (s.broker.handle s.now m).2).Dismissed c acts := by
  have handled := handledRequests_receive taken (s.broker.handle s.now m).1
    (s.broker.handle s.now m).2
  have handles := s.broker.handles_handle s.now m
  have first := told.first_iff orderly
  unfold Dismissed at dismissed ⊢
  rw [agenda_of_phase phase, List.append_nil] at dismissed
  rw [handled, agenda_withAgenda]
  generalize (s.broker.handle s.now m).1 = broker at handles
  generalize (s.broker.handle s.now m).2 = new at handles ⊢
  have noReply : ∀ e rest, s.agenda ≠ .reply e :: rest := by simp [agenda_of_phase phase]
  -- Only the reply to a request that is turned away adds to the dismissals.
  have nothing (same : c.dismissals (s.handledRequests ++ m.request?.toList) =
      c.dismissals s.handledRequests) :
      (c.dismissals (s.handledRequests ++ m.request?.toList)).Sublist (acts ++ new) := by
    rw [same]
    exact dismissed.trans (List.sublist_append_left _ _)
  cases handles with
  | @leave r _ awaiting data =>
      have none_ := first.mp awaiting
      have unparkable : r.isRoutable = false := by
        simp [Request.isRoutable, Request.shutdown?_eq_some.mpr data]
      refine nothing ?_
      change c.dismissals (s.handledRequests ++ [r]) = _
      rw [dismissals_concat none_ (by simp [Request.isHandshake, data]),
        dismissals_of_none none_]
      simp [unparkable]
  | greet awaiting handshake =>
      exact nothing (dismissals_concat_handshake (first.mp awaiting) handshake)
  | @turnAway r awaiting routable full =>
      have none_ := first.mp awaiting
      rw [told.maxParked, queued awaiting, parkedOf, List.length_take] at full
      change (c.dismissals (s.handledRequests ++ [r])).Sublist _
      rw [dismissals_concat none_ routable.not_handshake, List.drop_append_of_le_length (by omega),
        List.map_append, ← dismissals_of_none none_]
      simpa [Request.isRoutable_iff.mpr routable] using dismissed
  | @park r awaiting routable room =>
      have none_ := first.mp awaiting
      rw [told.maxParked, queued awaiting, parkedOf, List.length_take] at room
      refine nothing ?_
      change c.dismissals (s.handledRequests ++ [r]) = _
      rw [dismissals_concat none_ routable.not_handshake, dismissals_of_none none_,
        List.drop_of_length_le (by simp [Request.isRoutable_iff.mpr routable]; omega),
        List.drop_of_length_le (by omega)]
  | greetAgain active =>
      obtain ⟨r, some_, -⟩ := told.first_of_active noReply active
      exact nothing (dismissals_concat_of_some some_)
  | route active =>
      obtain ⟨r, some_, -⟩ := told.first_of_active noReply active
      exact nothing (dismissals_concat_of_some some_)
  | _ => exact nothing (by simp [BrokerMessage.request?])

/-- After any deeds of the broker all dismissals have been told, or are about to be. -/
theorem Fresh.dismissed_of_does (fresh : s.Fresh c) (h : Does allowed s deeds t) :
    t.Dismissed c (deeds.map (·.act)) := by
  induction h with
  | refl => simp [Dismissed, fresh.handledRequests, Config.dismissals, Config.turnedAway]
  | carry first carries ih =>
      obtain ⟨out, reached⟩ := first.reaches
      rw [List.map_append]
      exact ih.carry (fresh.orderly_of_reaches reached) carries
  | receive first phase _ _ taken ih =>
      obtain ⟨out, reached⟩ := first.reaches
      exact ih.receive (fresh.orderly_of_reaches reached) (fresh.told_of_reaches reached)
        (fresh.queued_of_reaches reached) phase taken
  | background first background ih =>
      obtain ⟨out, reached⟩ := first.reaches
      have still := background.still (fresh.orderly_of_reaches reached).sound
      unfold Dismissed
      rw [still.agenda, still.handledRequests]
      exact ih

/-! ### What workers are given -/

/-- A worker is given requests by acts that are carried out, and by nothing else. -/
theorem Carries.requests {a : Act} (h : Carries s a t) (w : Worker) :
    t.topology.requests w = s.topology.requests w ++ Deed.given ⟨a, s.topology⟩ w := by
  cases h with
  | finish => exact (List.append_nil _).symm
  | act =>
      cases a with
      | route r => exact s.topology.requests_dispatch_eq r w
      | _ => exact (List.append_nil _).symm

/-- Workers are given what they are given by the acts that are carried out. -/
theorem Fresh.requests_of_does (fresh : s.Fresh c) (h : Does allowed s deeds t) (w : Worker) :
    t.topology.requests w = s.topology.requests w ++ deeds.flatMap (·.given w) := by
  induction h with
  | refl => simp
  | carry _ carries ih =>
      rw [carries.requests, ih, List.flatMap_append, List.append_assoc]
      simp
  | receive _ _ _ _ _ ih => exact ih
  | background first background ih =>
      obtain ⟨out, reached⟩ := first.reaches
      rw [(background.still (fresh.orderly_of_reaches reached).sound).requests, ih]

/-- The workers keep their layout. -/
theorem Fresh.layout_of_does (fresh : s.Fresh c) (h : Does allowed s deeds t) :
    ∀ d ∈ deeds, d.workers.layout = s.topology.layout := by
  induction h with
  | refl => simp
  | carry first _ ih =>
      obtain ⟨out, reached⟩ := first.reaches
      intro d mem
      rcases List.mem_append.mp mem with old | new
      · exact ih d old
      · rw [List.mem_singleton.mp new]
        exact (fresh.orderly.grown reached).layout
  | receive _ _ _ _ _ ih => exact ih
  | background _ _ ih => exact ih

/-- A worker is given its part of what is routed, or it refuses. -/
theorem given_cases {d : Deed} {r : Request} (act : d.act = .route r) (w : Worker) :
    d.given w = partOf d.workers.layout w r ∨
      d.given w = [] ∧ (d.workers.refusal? w = some (.workerUnavailable w) ∨
        d.workers.refusal? w = some (.workerGone w) ∨
        d.workers.refusal? w = some (.workerBusy w)) := by
  simp only [Deed.given, act]
  cases refuses : d.workers.refusal? w with
  | none => exact .inl rfl
  | some e =>
      refine .inr ⟨rfl, ?_⟩
      rcases Topology.refusal?_cases refuses with rfl | rfl | rfl <;> simp

/-- What a worker is given by an act is its part of the request that is routed, if anything. -/
theorem given_sublist_part (d : Deed) (w : Worker) :
    (d.given w).Sublist (d.act.request?.toList.flatMap (partOf d.workers.layout w)) := by
  obtain ⟨a, workers⟩ := d
  cases a with
  | route r =>
      rcases given_cases (d := ⟨.route r, workers⟩) rfl w with part | ⟨none_, -⟩
      · rw [part]
        cases stays : r.shutdown? with
        | none => simp [Act.request?, stays]
        | some params =>
            have data := Request.shutdown?_eq_some.mp stays
            simp [partOf, plan, data]
      · rw [none_]
        exact List.nil_sublist _
  | _ => exact List.nil_sublist _

/-- What is given of some acts is taken out of the parts of the requests that they route. -/
theorem given_sublist {layout : Layout} (w : Worker)
    (same : ∀ d ∈ deeds, d.workers.layout = layout) :
    (deeds.flatMap (·.given w)).Sublist
      ((deeds.filterMap (·.act.request?)).flatMap (partOf layout w)) := by
  rw [List.filterMap_eq_flatMap_toList, List.flatMap_assoc]
  refine List.Sublist.flatMap_right deeds fun d mem => ?_
  rw [← same d mem]
  exact given_sublist_part d w

/-- How the requests that were sent and those that workers were given hang together. -/
structure InOrder (c : Config) (layout : Layout) (sent : List Request) (deeds : List Deed)
    (s : Session) : Prop where
  /-- Requests are handled in the order in which they were sent. -/
  handled : s.handledRequests <+: sent
  /-- Those that are admitted are routed in that order, each once, or still wait. -/
  routed : deeds.filterMap (·.act.request?) ++ s.waiting = c.admitted s.handledRequests
  /-- Of what can be handed to workers nothing is neither admitted nor turned away. -/
  settled : ∀ r ∈ s.handledRequests, r.Routable →
    r ∈ c.admitted s.handledRequests ∨ r ∈ c.turnedAway s.handledRequests
  /-- Those that are not admitted are told that they were turned away. -/
  dismissed : s.Dismissed c (deeds.map (·.act))
  /-- When the broker has nothing left to do, none waits but for want of a handshake. -/
  flushed : s.agenda = [] → s.waiting ≠ [] → firstHandshake? s.handledRequests = none
  /-- Workers are given what is routed, and nothing else. -/
  given : ∀ w, s.topology.requests w = deeds.flatMap (·.given w)
  /-- A worker is given the whole of its part, unless it was not started, has stopped or has a
  full mailbox. -/
  whole : ∀ d ∈ deeds, ∀ r, d.act = .route r → ∀ w,
    d.given w = partOf layout w r ∨
      d.given w = [] ∧ (d.workers.refusal? w = some (.workerUnavailable w) ∨
        d.workers.refusal? w = some (.workerGone w) ∨
        d.workers.refusal? w = some (.workerBusy w))
  /-- So no worker is given anything twice, or out of order. -/
  parts : ∀ w, (s.topology.requests w).Sublist (sent.flatMap (partOf layout w))

end Session

/-! ### Main statement -/

open Session in
/-- **Workers are given requests in the order in which the client sends them.** After every
run the requests in a worker's mailbox are those that the broker has routed, in the order in
which the client sent them, each at most once and each with the worker's part under the
identifier of the request. Whole parts are missing only of requests that were turned away,
that wait for a handshake or were not handled, or that the worker refused. -/
theorem worker_requests_in_order {c : Config} {f : Staffing} {search files : Behaviour}
    {size : Nat} {s : Session} (started : start c f search files size = .ok s)
    (moves : List Move) :
    (∃ deeds, Does (fun _ => True) s deeds (s.run moves) ∧
      InOrder c f.layout (s.submissions moves) deeds (s.run moves)) ∧
    ∀ w r, (partOf f.layout w r).length ≤ 1 ∧ ∀ q ∈ partOf f.layout w r, q.id = r.id := by
  obtain ⟨fresh, topology, -⟩ := start_eq_ok started
  obtain ⟨out, reached⟩ := reaches_run (fun _ => True) s moves fun _ _ _ => trivial
  obtain ⟨deeds, done⟩ := reaches_iff_does.mp ⟨out, reached⟩
  refine ⟨⟨deeds, done, ?_⟩, fun w r => ⟨length_partOf_le .., fun _ => id_of_mem_partOf⟩⟩
  have orderly := fresh.orderly_of_reaches reached
  have told := fresh.told_of_reaches reached
  have routed := fresh.routed_of_does done
  have layouts := fresh.layout_of_does done
  have given (w : Worker) : (s.run moves).topology.requests w = deeds.flatMap (·.given w) := by
    rw [fresh.requests_of_does done, topology, requests_topology, List.nil_append]
  have handled : (s.run moves).handledRequests <+: s.submissions moves := by
    have sent : (s.run moves).sentRequests = s.submissions moves := by
      rw [(fed_run s moves).sentRequests, sentRequests, fresh.inbox]
      rfl
    rw [← sent]
    exact (Mailbox.read_prefix _).filterMap _
  rw [topology] at layouts
  refine ⟨handled, routed, fun r mem routable => admitted_or_turnedAway c mem routable,
    fresh.dismissed_of_does done, ?_, given, ?_, ?_⟩
  · intro idle waits
    refine (told.first_iff orderly).mp ?_
    cases connection : (s.run moves).broker.connection with
    | awaiting => rfl
    | active =>
        refine absurd ?_ waits
        rw [Session.waiting, orderly.active connection, idle]
        rfl
  · intro d mem r act w
    have layout : d.workers.layout = f.layout := layouts d mem
    rw [← layout]
    exact given_cases act w
  · intro w
    rw [given]
    refine (given_sublist w layouts).trans (List.Sublist.flatMap ?_ _)
    exact ((List.sublist_append_left _ _).trans (routed ▸ admitted_sublist c _)).trans
      handled.sublist

open Session in
/-- A batch is split; a search is parked behind it, and a third request turned away. After the
handshake a worker with a full mailbox misses another batch. -/
theorem worker_requests_in_order_of_batches :
    ∃ s moves t a b, start { Config.default with session := ⟨2, 4⟩ } ⟨.mixed, .replicate (some 1)⟩
        .hangs .hangs 4 = .ok s ∧
      a = SourceFile.mk (Path.ofString "A.java") ∧ b = SourceFile.mk (Path.ofString "b.kt") ∧
      moves = [.send (.request ⟨"1", .analyzeBatch ⟨.hover, [b, a]⟩⟩), .step .broker,
        .send (.request ⟨"2", .search ⟨"x", none⟩⟩), .step .broker,
        .send (.request ⟨"3", .docs ⟨"y"⟩⟩), .step .broker,
        .send (.request ⟨"4", .handshake ⟨none, none, none⟩⟩), .step .broker,
        .readWorker .primary 1,
        .send (.request ⟨"5", .analyzeBatch ⟨.hover, [a, b]⟩⟩), .step .broker] ∧
      s.run moves = t ∧
      s.submissions moves = [⟨"1", .analyzeBatch ⟨.hover, [b, a]⟩⟩, ⟨"2", .search ⟨"x", none⟩⟩,
        ⟨"3", .docs ⟨"y"⟩⟩, ⟨"4", .handshake ⟨none, none, none⟩⟩,
        ⟨"5", .analyzeBatch ⟨.hover, [a, b]⟩⟩] ∧
      t.topology.requests .primary =
        [⟨"1", .analyzeBatch ⟨.hover, [b]⟩⟩, ⟨"5", .analyzeBatch ⟨.hover, [b]⟩⟩] ∧
      t.topology.requests .java = [⟨"1", .analyzeBatch ⟨.hover, [a]⟩⟩] ∧
      t.topology.requests .indexer = [⟨"2", .search ⟨"x", none⟩⟩] ∧
      t.topology.requests .docs = [] ∧
      (∃ deeds, Does (fun _ => True) s deeds t ∧
        InOrder { Config.default with session := ⟨2, 4⟩ } .mixed (s.submissions moves) deeds t) ∧
      ∀ w r, (partOf .mixed w r).length ≤ 1 ∧ ∀ q ∈ partOf .mixed w r, q.id = r.id := by
  refine ⟨_, _, _, _, _, start_of_isSome (by decide +kernel), rfl, rfl, rfl, rfl,
    by decide +kernel, by decide +kernel, by decide +kernel, by decide +kernel, by decide +kernel,
    ?_⟩
  exact worker_requests_in_order (start_of_isSome (by decide +kernel)) _

end SessionBroker
