import Mathlib.Data.List.TakeWhile
import SessionBroker.Proofs.Accounts
import SessionBroker.Proofs.Deeds
import SessionBroker.Proofs.Deliveries
import SessionBroker.Proofs.History

/-!
What is parked, and how it is flushed.

Leaving aside what it tells the client, the broker has one course: it answers the first
handshake, routes what was parked, opens the gate, and routes what comes later, each request
once and in order. `Config.course` is that course for the requests handled so far. Main
statement: `flush_unbroken`, at any time the acts that were carried out and those that are
still to be carried out make up the course, so nothing ends the flush before the gate is open.
-/

namespace SessionBroker

/-! ### Requests that are parked -/

/-- Whether a request is neither a handshake nor one for the end of the session. -/
def Request.isRoutable (r : Request) : Bool := !r.isHandshake && r.shutdown?.isNone

theorem Request.isRoutable_iff {r : Request} : r.isRoutable = true ↔ r.Routable := by
  obtain ⟨id, data⟩ := r
  cases data <;> simp [isRoutable, isHandshake, shutdown?, Routable]

/-- The requests that are parked when some requests come before the handshake: the first of
those that can be parked, as many as there is room for. -/
def parkedOf (room : Nat) (rs : List Request) : List Request := (rs.filter (·.isRoutable)).take room

theorem routable_of_mem_parkedOf {room : Nat} {rs : List Request} {r : Request}
    (mem : r ∈ parkedOf room rs) : r.Routable :=
  Request.isRoutable_iff.mp (List.mem_filter.mp (List.mem_of_mem_take mem)).2

/-- One more request before the handshake is parked if there is room for it. -/
theorem parkedOf_concat {room : Nat} (rs : List Request) {r : Request} (routable : r.Routable) :
    parkedOf room (rs ++ [r]) =
      if room ≤ (parkedOf room rs).length then parkedOf room rs else parkedOf room rs ++ [r] := by
  have one : [r].filter (·.isRoutable) = [r] := by simp [Request.isRoutable_iff.mpr routable]
  rw [parkedOf, List.filter_append, one]
  exact Gate.take_append_singleton room _ r

/-- A request for the end of the session is not parked. -/
theorem parkedOf_concat_shutdown {room : Nat} (rs : List Request) {r : Request}
    {params : ShutdownParams} (data : r.data = .shutdown params) :
    parkedOf room (rs ++ [r]) = parkedOf room rs := by
  have none_ : [r].filter (·.isRoutable) = [] := by
    simp [Request.isRoutable, Request.shutdown?_eq_some.mpr data]
  rw [parkedOf, List.filter_append, none_, List.append_nil, parkedOf]

/-! ### The course -/

/-- Whether an act is more than an event for the gate or the end of the session. -/
def Act.isControl : Act → Bool
  | .reply _ | .route _ | .activate => true
  | .emit _ | .finish _ => false

/-- What the broker has to do about some requests, apart from telling the client about it. -/
def Config.course (c : Config) (rs : List Request) : List Act :=
  match rs.dropWhile (!·.isHandshake) with
  | [] => []
  | handshake :: later =>
    .reply (c.greeting handshake.id)
      :: ((parkedOf c.session.maxPending.toNat (rs.takeWhile (!·.isHandshake))).map .route
        ++ .activate :: (later.filter (!·.isHandshake)).map .route)

/-- The requests that are to be handed to workers, some time: before the handshake those that
are parked, after it all that can be handed to workers. -/
def Config.admitted (c : Config) (rs : List Request) : List Request :=
  parkedOf c.session.maxPending.toNat (rs.takeWhile (!·.isHandshake))
    ++ (rs.dropWhile (!·.isHandshake)).filter (·.isRoutable)

section Course

variable {c : Config} {rs : List Request} {r : Request}

/-- Requests without a handshake. -/
theorem split_of_none (none_ : firstHandshake? rs = none) :
    rs.takeWhile (!·.isHandshake) = rs ∧ rs.dropWhile (!·.isHandshake) = [] := by
  have others := List.find?_eq_none.mp none_
  constructor
  · exact List.takeWhile_eq_self_iff.mpr fun q mem => by simpa using others q mem
  · exact List.dropWhile_eq_nil_iff.mpr fun q mem => by simpa using others q mem

/-- More requests do not change what the first handshake is. -/
theorem split_of_some {first : Request} (more : List Request)
    (some_ : firstHandshake? rs = some first) :
    (rs ++ more).takeWhile (!·.isHandshake) = rs.takeWhile (!·.isHandshake) ∧
      ∃ later, rs.dropWhile (!·.isHandshake) = first :: later ∧
        (rs ++ more).dropWhile (!·.isHandshake) = first :: (later ++ more) := by
  obtain ⟨handshake, early, later, rfl, others⟩ := List.find?_eq_some_iff_append.mp some_
  have stop : (!first.isHandshake) = false := by simp [handshake]
  rw [List.append_assoc, List.takeWhile_append_of_pos others, List.takeWhile_append_of_pos others,
    List.dropWhile_append_of_pos others, List.dropWhile_append_of_pos others]
  exact ⟨by simp [stop], later, by simp [stop], by simp [stop]⟩

theorem course_of_none (none_ : firstHandshake? rs = none) : c.course rs = [] := by
  rw [Config.course, (split_of_none none_).2]

/-- With the handshake the reply, the parked requests and the activation are to be done. -/
theorem course_concat_handshake (none_ : firstHandshake? rs = none)
    (handshake : r.isHandshake = true) :
    c.course (rs ++ [r]) = .reply (c.greeting r.id)
      :: ((parkedOf c.session.maxPending.toNat rs).map .route ++ [.activate]) := by
  have others : ∀ q ∈ rs, (!q.isHandshake) = true := fun q mem => by
    simpa using List.find?_eq_none.mp none_ q mem
  rw [Config.course, List.dropWhile_append_of_pos others, List.takeWhile_append_of_pos others]
  simp [handshake]

/-- After it each request for workers is to be routed, and nothing else. -/
theorem course_concat_of_some {first : Request} (some_ : firstHandshake? rs = some first) :
    c.course (rs ++ [r]) = c.course rs ++ if r.isHandshake then [] else [.route r] := by
  obtain ⟨before, later, after, more⟩ := split_of_some [r] some_
  rw [Config.course, Config.course, before, more, after]
  cases handshake : r.isHandshake <;> simp [handshake]

/-- The gate is opened once on the course. -/
theorem count_activate_course_le : (c.course rs).count .activate ≤ 1 := by
  have nothing (qs : List Request) : (qs.map Act.route).count .activate = 0 := by
    rw [List.count_eq_zero]
    simp
  unfold Config.course
  split
  · exact Nat.zero_le _
  · simp [nothing]

theorem not_handshake_of_route_mem_course (mem : .route r ∈ c.course rs) :
    r.isHandshake = false := by
  unfold Config.course at mem
  split at mem
  · cases mem
  · simp only [List.mem_cons, List.mem_append, List.mem_map, Act.route.injEq, exists_eq_right,
      reduceCtorEq, false_or] at mem
    rcases mem with early | late
    · exact (routable_of_mem_parkedOf early).not_handshake
    · simpa using (List.mem_filter.mp late).2

end Course

namespace Session

variable {allowed : Move → Prop} {c : Config} {s t : Session} {out : List Event}
  {deeds : List Deed}

/-! ### What is parked -/

/-- Before the handshake the first requests that can be parked are. -/
def Queued (c : Config) (s : Session) : Prop :=
  s.broker.connection = .awaiting →
    s.broker.parked = parkedOf c.session.maxPending.toNat s.handledRequests

theorem Queued.kept (queued : s.Queued c) (orderly : s.Orderly) (told : s.Told c)
    (h : Transition allowed s out t) : t.Queued c := by
  cases h with
  | @receive m inbox phase _ _ taken =>
      intro awaiting
      have handled := handledRequests_receive taken (s.broker.handle s.now m).1
        (s.broker.handle s.now m).2
      have handles := s.broker.handles_handle s.now m
      rw [handled]
      change (s.broker.handle s.now m).1.connection = .awaiting at awaiting
      change (s.broker.handle s.now m).1.parked = _
      generalize (s.broker.handle s.now m).1 = broker at handles awaiting ⊢
      generalize (s.broker.handle s.now m).2 = acts at handles
      have same (none_ : m.request? = none) (before : s.broker.connection = .awaiting) :
          s.broker.parked =
            parkedOf c.session.maxPending.toNat (s.handledRequests ++ m.request?.toList) := by
        rw [none_, Option.toList_none, List.append_nil]
        exact queued before
      cases handles with
      | leave before data => exact (queued before).trans (parkedOf_concat_shutdown _ data).symm
      | greet => cases awaiting
      | turnAway before routable full =>
          have parked := queued before
          refine parked.trans ?_
          change _ = parkedOf _ (s.handledRequests ++ [_])
          rw [parkedOf_concat _ routable, if_pos]
          rwa [← parked, ← told.maxParked]
      | park before routable room =>
          have parked := queued before
          change _ = parkedOf _ (s.handledRequests ++ [_])
          rw [parkedOf_concat _ routable, if_neg]
          · rw [← parked]
          · rw [← parked, ← told.maxParked]
            exact Nat.not_le_of_lt room
      | greetAgain active => rw [active] at awaiting; cases awaiting
      | route active => rw [active] at awaiting; cases awaiting
      | _ => exact same rfl awaiting
  | background background =>
      have still := background.still orderly.sound
      intro awaiting
      rw [still.parked, still.handledRequests]
      exact queued (still.connection ▸ awaiting)
  | _ => exact queued

theorem Fresh.queued (fresh : s.Fresh c) : s.Queued c := by
  intro _
  simp [fresh.parked, fresh.handledRequests, parkedOf]

theorem Fresh.queued_of_reaches (fresh : s.Fresh c) (h : Reaches allowed s out t) :
    t.Queued c := by
  induction h with
  | refl => exact fresh.queued
  | tail first last ih =>
      exact ih.kept (fresh.orderly_of_reaches first) (fresh.told_of_reaches first) last

/-! ### The course is kept -/

/-- The broker waits for a handshake just as long as it has handled none. -/
theorem Told.first_iff (told : s.Told c) (orderly : s.Orderly) :
    s.broker.connection = .awaiting ↔ firstHandshake? s.handledRequests = none := by
  cases told.stage with
  | awaiting awaiting none_ => simp [awaiting, none_]
  | answering some_ agenda =>
      have form := orderly.agenda
      rw [agenda] at form
      simp [some_, form.of_reply.1]
  | answered active some_ => simp [active, some_]

/-- Done and still to be done: the course for what has been handled. -/
def OnCourse (c : Config) (s : Session) (acts : List Act) : Prop :=
  (acts ++ s.agenda).filter (·.isControl) = c.course s.handledRequests

theorem control_flush (rs : List Request) :
    (rs.map Act.route ++ [Act.activate]).filter (·.isControl) =
      rs.map Act.route ++ [Act.activate] := by
  rw [List.filter_eq_self]
  intro a mem
  rcases List.mem_append.mp mem with mem | mem
  · obtain ⟨r, -, rfl⟩ := List.mem_map.mp mem
    rfl
  · rw [List.mem_singleton.mp mem]
    rfl

/-- The acts that take the place of a routed request only tell of its fate. -/
theorem control_followUp (id : String) (fate : Except DispatchError Routed) :
    (Outlets.followUp id fate).filter (·.isControl) = [] := by
  rw [List.filter_eq_nil_iff]
  intro a mem
  rcases Outlets.followUp_cases mem with ⟨e, rfl⟩ | ⟨ending, rfl⟩ <;> simp [Act.isControl]

/-- An act that is carried out passes from what is still to be done to what is done. -/
theorem OnCourse.carry {acts : List Act} (onCourse : s.OnCourse c acts) (orderly : s.Orderly)
    {a : Act} (h : Carries s a t) : t.OnCourse c (acts ++ [a]) := by
  unfold OnCourse at onCourse ⊢
  cases h with
  | finish phase =>
      obtain rfl := (orderly.agenda_of_phase phase).of_finish
      rw [agenda_of_phase phase] at onCourse
      rw [List.append_assoc]
      exact onCourse
  | @act a rest phase unfinished ready =>
      rw [agenda_of_phase phase] at onCourse
      change _ = c.course s.handledRequests
      rw [← onCourse, agenda_withAgenda, List.append_assoc, List.filter_append, List.filter_append,
        List.filter_append, List.filter_append, List.append_cancel_left_eq, List.filter_cons]
      have nothing : ((s.outlets.performOne a).1).filter (·.isControl) = [] := by
        cases a with
        | route r => exact control_followUp _ _
        | _ => rfl
      rw [nothing]
      cases control : a.isControl <;> simp [control]

/-- A message that is taken adds what it calls for to what is still to be done. -/
theorem OnCourse.receive {acts : List Act} (onCourse : s.OnCourse c acts) (orderly : s.Orderly)
    (told : s.Told c) (queued : s.Queued c) (phase : s.phase = .serving []) {m : BrokerMessage}
    {inbox : Mailbox BrokerMessage} (taken : s.inbox.next? = some (m, inbox)) :
    ({ s with inbox, broker := (s.broker.handle s.now m).1 }.withAgenda
      (s.broker.handle s.now m).2).OnCourse c acts := by
  have handled := handledRequests_receive taken (s.broker.handle s.now m).1
    (s.broker.handle s.now m).2
  have handles := s.broker.handles_handle s.now m
  have first := told.first_iff orderly
  unfold OnCourse at onCourse ⊢
  rw [agenda_of_phase phase, List.append_nil] at onCourse
  rw [handled, agenda_withAgenda, List.filter_append, onCourse]
  generalize (s.broker.handle s.now m).1 = broker at handles
  generalize (s.broker.handle s.now m).2 = acts at handles ⊢
  have noReply : ∀ e rest, s.agenda ≠ .reply e :: rest := by simp [agenda_of_phase phase]
  -- Before the handshake there is no course for more requests of other kinds either.
  have waiting {r : Request} (awaiting : s.broker.connection = .awaiting)
      (other : r.isHandshake = false) :
      c.course s.handledRequests = c.course (s.handledRequests ++ [r]) := by
    have none_ := first.mp awaiting
    rw [course_of_none none_, course_of_none]
    rw [firstHandshake?_append_of_none none_]
    simp [firstHandshake?, other]
  have none_ {acts : List Act} (silent : acts.filter (·.isControl) = []) :
      c.course s.handledRequests ++ acts.filter (·.isControl) =
        c.course (s.handledRequests ++ (none : Option Request).toList) := by
    simp [silent]
  cases handles with
  | leave awaiting data =>
      simpa [Act.isControl, BrokerMessage.request?] using
        waiting awaiting (by simp [Request.isHandshake, data])
  | greet awaiting handshake =>
      have none_ := first.mp awaiting
      change _ = c.course (s.handledRequests ++ [_])
      rw [course_of_none none_, course_concat_handshake none_ handshake, ← queued awaiting,
        told.greeting, List.nil_append, List.filter_cons_of_pos rfl, control_flush]
  | turnAway awaiting routable =>
      simpa [Act.isControl, BrokerMessage.request?] using waiting awaiting routable.not_handshake
  | park awaiting routable =>
      simpa [BrokerMessage.request?] using waiting awaiting routable.not_handshake
  | greetAgain active handshake =>
      obtain ⟨r, some_, -⟩ := told.first_of_active noReply active
      change _ = c.course (s.handledRequests ++ [_])
      rw [course_concat_of_some some_]
      simp [handshake, Act.isControl]
  | route active other =>
      obtain ⟨r, some_, -⟩ := told.first_of_active noReply active
      change _ = c.course (s.handledRequests ++ [_])
      rw [course_concat_of_some some_]
      simp [other, Act.isControl]
  | _ => exact none_ rfl

/-- Whatever the broker has done is on the course. -/
theorem Fresh.onCourse_of_does (fresh : s.Fresh c) (h : Does allowed s deeds t) :
    t.OnCourse c (deeds.map (·.act)) := by
  induction h with
  | refl => simp [OnCourse, fresh.agenda, fresh.handledRequests, Config.course]
  | carry first carries ih =>
      obtain ⟨out, reached⟩ := first.reaches
      rw [List.map_append]
      exact ih.carry (fresh.orderly_of_reaches reached) carries
  | receive first phase _ _ taken ih =>
      obtain ⟨out, reached⟩ := first.reaches
      exact ih.receive (fresh.orderly_of_reaches reached) (fresh.told_of_reaches reached)
        (fresh.queued_of_reaches reached) phase taken
  | background first background ih =>
      obtain ⟨out, reached⟩ := first.reaches
      have still := background.still (fresh.orderly_of_reaches reached).sound
      unfold OnCourse
      rw [still.agenda, still.handledRequests]
      exact ih

/-! ### The activation -/

/-- While the gate is still to be opened nothing is decided about the end. -/
theorem Orderly.undecided (orderly : s.Orderly) (opens : .activate ∈ s.agenda) :
    s.decided = none := by
  have form := orderly.agenda
  have routes {rs : List Request} (routable : ∀ r ∈ rs, r.Routable) :
      (rs.map Act.route ++ [Act.activate]).findSome? Act.ending? = none :=
    (acts_route routable [.activate]).2.2
  unfold Session.decided
  unfold Session.agenda at opens form
  cases phase : s.phase with
  | serving acts =>
      rw [phase] at opens form
      dsimp only at opens form ⊢
      generalize s.broker.connection = connection at form
      cases form with
      | greet routable => exact routes routable
      | flush routable => exact routes routable
      | report routable => exact routes routable
      | _ => simp at opens
  | closing ending => simp [phase] at opens
  | ended ending => simp [phase] at opens

/-- An activation reaches the gate at most once for each time that it is told. -/
theorem count_activate_tell {m : GateMessage Outgoing} (inbox : Mailbox (GateMessage Outgoing)) :
    (Outlets.tell inbox m).accepted.count .activate ≤
      inbox.accepted.count .activate + [m].count .activate := by
  unfold Outlets.tell
  split
  · rename_i n offered
    obtain ⟨-, -, rfl⟩ := Mailbox.offer_eq_ok.mp offered
    rw [Mailbox.put_accepted, List.count_append]
  · exact Nat.le_add_right _ _

/-- Nobody but the broker sends activations. -/
theorem Carried.count_activate (carried : Carried s t) :
    t.gate.inbox.accepted.count .activate = s.gate.inbox.accepted.count .activate := by
  cases carried with
  | gate stepped => rw [(Gate.step_frame stepped).2.1]
  | relay _ offered gate =>
      obtain ⟨-, -, rfl⟩ := Mailbox.offer_eq_ok.mp offered
      rw [gate, Mailbox.put_accepted, List.count_append]
      simp
  | none gate => rw [gate]

/-- Only an activation that is carried out activates the gate. -/
theorem Carries.count_activate {a : Act} (h : Carries s a t) :
    t.gate.inbox.accepted.count .activate ≤
      s.gate.inbox.accepted.count .activate + [a].count .activate := by
  cases h with
  | finish => exact Nat.le_add_right _ _
  | act =>
      cases a with
      | emit e => exact count_activate_tell s.gate.inbox
      | activate => exact count_activate_tell s.gate.inbox
      | _ => exact Nat.le_add_right _ _

/-- The gate gets no activation that was not sent. -/
theorem Fresh.count_activate (fresh : s.Fresh c) (h : Does allowed s deeds t) :
    t.gate.inbox.accepted.count .activate ≤ (deeds.map (·.act)).count .activate := by
  induction h with
  | refl =>
      rw [fresh.gate]
      exact Nat.le_refl 0
  | carry _ carries ih =>
      rw [List.map_append, List.count_append]
      exact Nat.le_trans carries.count_activate (Nat.add_le_add_right ih _)
  | receive _ _ _ _ _ ih => exact ih
  | background _ background ih =>
      rw [background.carried.count_activate]
      exact ih

/-- The connection never goes back. -/
theorem Orderly.active_kept (orderly : s.Orderly) (h : Reaches allowed s out t)
    (active : s.broker.connection = .active) : t.broker.connection = .active := by
  induction h with
  | refl => exact active
  | @tail t u _ _ first last ih =>
      cases last with
      | @receive m _ =>
          have handles := t.broker.handles_handle t.now m
          change (t.broker.handle t.now m).1.connection = .active
          generalize (t.broker.handle t.now m).1 = broker at handles
          generalize (t.broker.handle t.now m).2 = acts at handles
          cases handles with
          | greet => rfl
          | _ => exact ih
      | background background =>
          have still := background.still (first.invariant orderly Orderly.kept).sound
          exact still.connection.trans ih
      | _ => exact ih

/-- How parking and flushing stand when the broker has carried out some acts. -/
structure Flushes (c : Config) (s : Session) (acts : List Act) : Prop where
  /-- Before the handshake the first requests that can be parked are, in order of arrival. -/
  parked : s.broker.connection = .awaiting →
    s.broker.parked = parkedOf c.session.maxPending.toNat s.handledRequests
  routable : ∀ r ∈ s.broker.parked, r.Routable
  /-- After the handshake nothing is parked, and between messages nothing waits. -/
  empty : s.broker.connection = .active →
    s.broker.parked = [] ∧ (s.agenda = [] → s.waiting = [])
  onCourse : s.OnCourse c acts
  /-- Until the gate is opened the broker serves, and nothing of what it has to do ends the
  session. -/
  unbroken : .activate ∈ s.agenda → s.phase = .serving s.agenda ∧ s.decided = none
  /-- The gate is opened at most once. -/
  once : (acts ++ s.agenda).count .activate ≤ 1
  sent : s.gate.inbox.accepted.count .activate ≤ acts.count .activate
  /-- As long as the client reads, the gate gets the activation. -/
  got : s.client.isOpen = true → .activate ∈ acts → .activate ∈ s.gate.inbox.accepted

theorem count_control (acts : List Act) :
    (acts.filter (·.isControl)).count .activate = acts.count .activate :=
  List.count_filter rfl

/-- After any deeds of the broker parking and flushing stand as they should. -/
theorem Fresh.flushes (fresh : s.Fresh c) (h : Does allowed s deeds t) :
    t.Flushes c (deeds.map (·.act)) := by
  obtain ⟨out, reached⟩ := h.reaches
  have orderly := fresh.orderly_of_reaches reached
  have told := fresh.told_of_reaches reached
  have onCourse := fresh.onCourse_of_does h
  have once : (deeds.map (·.act) ++ t.agenda).count .activate ≤ 1 := by
    rw [← count_control, onCourse]
    exact count_activate_course_le
  refine ⟨fresh.queued_of_reaches reached, orderly.parked, ?_, onCourse, ?_, once,
    fresh.count_activate h, ?_⟩
  · intro active
    have parked := orderly.active active
    exact ⟨parked, fun idle => by simp [Session.waiting, parked, idle]⟩
  · intro opens
    refine ⟨?_, orderly.undecided opens⟩
    unfold Session.agenda at opens ⊢
    cases phase : t.phase with
    | serving acts => rfl
    | closing ending => simp [phase] at opens
    | ended ending => simp [phase] at opens
  · intro there mem
    have unsent : .activate ∉ t.agenda := by
      intro twice
      have one := List.count_pos_iff.mpr mem
      have two := List.count_pos_iff.mpr twice
      rw [List.count_append] at once
      omega
    have active : t.broker.connection = .active := by
      cases connection : t.broker.connection with
      | active => rfl
      | awaiting =>
          have course : .activate ∈ c.course t.handledRequests := by
            rw [← onCourse]
            exact List.mem_filter.mpr ⟨List.mem_append_left _ mem, rfl⟩
          rw [course_of_none ((told.first_iff orderly).mp connection)] at course
          cases course
    exact Gate.opened_iff_mem.mp (fresh.activated_of_reaches reached active unsent there)

end Session

/-! ### Main statement -/

open Session in
/-- **The flush is never broken off.** Whatever happens, before the handshake exactly the first
requests that there is room for are parked, in order and no handshake or end of the session
among them. The handshake is answered, all of them are routed and the gate is opened, once and
with nothing that could end the session in between; later requests are routed as they come. The
connection never goes back, and no worker is ever looked for that could take a handshake. -/
theorem flush_unbroken {c : Config} {f : Staffing} {search files : Behaviour} {size : Nat}
    {s : Session} (started : start c f search files size = .ok s) :
    (∀ moves, ∃ deeds, Does (fun _ => True) s deeds (s.run moves)) ∧
    ∀ deeds t, Does (fun _ => True) s deeds t →
      t.Flushes c (deeds.map (·.act)) ∧
      (t.broker.connection = .active →
        ∀ more u, Does (fun _ => True) t more u → u.broker.connection = .active) ∧
      ∀ d ∈ deeds, ∀ r, d.act = .route r →
        r.isHandshake = false ∧
          ∀ method, (d.workers.dispatch r).2 ≠ .error (.notRoutable method) := by
  have fresh := fresh_start started
  constructor
  · intro moves
    exact reaches_iff_does.mp (reaches_run (fun _ => True) s moves fun _ _ _ => trivial)
  · intro deeds t done
    obtain ⟨out, reached⟩ := done.reaches
    refine ⟨fresh.flushes done, ?_, ?_⟩
    · intro active more u later
      obtain ⟨out, next⟩ := later.reaches
      exact (fresh.orderly_of_reaches reached).active_kept next active
    · intro d mem r act
      have routed : .route r ∈ c.course t.handledRequests := by
        rw [← fresh.onCourse_of_does done]
        refine List.mem_filter.mpr ⟨List.mem_append_left _ ?_, rfl⟩
        exact act ▸ List.mem_map_of_mem mem
      have other := not_handshake_of_route_mem_course routed
      refine ⟨other, d.workers.dispatch_ne_notRoutable ?_⟩
      intro params data
      simp [Request.isHandshake, data] at other

open Session in
/-- Of three searches two are parked and one is turned away; the handshake comes, and with it the
two are routed before the gate is opened. -/
theorem flush_unbroken_of_searches :
    ∃ s t deeds, start { Config.default with session := ⟨2, 4⟩ } ⟨.mixed, .replicate (some 1)⟩
        .hangs .hangs 4 = .ok s ∧
      s.run [.send (.request ⟨"1", .search ⟨"x", none⟩⟩), .step .broker,
        .send (.request ⟨"2", .search ⟨"y", none⟩⟩), .step .broker,
        .send (.request ⟨"3", .search ⟨"z", none⟩⟩), .step .broker,
        .send (.request ⟨"4", .handshake ⟨none, none, none⟩⟩), .step .broker,
        .send (.request ⟨"5", .docs ⟨"x"⟩⟩), .step .broker] = t ∧
      Does (fun _ => True) s deeds t ∧ t.broker.connection = .active ∧ t.agenda = [] ∧
      Config.course { Config.default with session := ⟨2, 4⟩ } t.handledRequests =
        [.reply (Config.default.greeting "4"), .route ⟨"1", .search ⟨"x", none⟩⟩,
          .route ⟨"2", .search ⟨"y", none⟩⟩, .activate, .route ⟨"5", .docs ⟨"x"⟩⟩] ∧
      t.Flushes { Config.default with session := ⟨2, 4⟩ } (deeds.map (·.act)) ∧
      (t.broker.connection = .active →
        ∀ more u, Does (fun _ => True) t more u → u.broker.connection = .active) ∧
      ∀ d ∈ deeds, ∀ r, d.act = .route r →
        r.isHandshake = false ∧
          ∀ method, (d.workers.dispatch r).2 ≠ .error (.notRoutable method) := by
  have started : start { Config.default with session := ⟨2, 4⟩ } ⟨.mixed, .replicate (some 1)⟩
      .hangs .hangs 4 = .ok _ := start_of_isSome (by decide +kernel)
  obtain ⟨deeds, done⟩ := (flush_unbroken started).1 _
  exact ⟨_, _, deeds, started, rfl, done, by decide +kernel, by decide +kernel, by decide +kernel,
    (flush_unbroken started).2 deeds _ done⟩

end SessionBroker
