import SessionBroker.Proofs.EventOrder
import SessionBroker.Proofs.Replay

/-!
Messages that only ask for an answer.

A handshake that is repeated and a line that is rejected are `Extra`. `Inserts` says that one
history is another one with such messages put in: each is taken at some point, and later its
answer is sent, while everything else happens as before. Main statement: `extra_messages_inert`.
-/

namespace SessionBroker

/-- A message that only asks for an answer. -/
inductive Extra where
  /-- One more handshake. -/
  | handshake (id : String) (params : HandshakeParams)
  /-- A line that is no request. -/
  | reject (response : Response)
  deriving DecidableEq

namespace Occurrence

def message? : Occurrence → Option BrokerMessage
  | took m => some m
  | _ => none

/-- Whether it is the broker that does something. -/
def isOwn : Occurrence → Bool
  | took _ | worked | left _ => true
  | passed _ | read _ _ | stopped _ | arrived _ => false

end Occurrence

namespace Extra

def message : Extra → BrokerMessage
  | handshake id params => .request ⟨id, .handshake params⟩
  | reject response => .reject response

/-- Its one answer: the descriptor, or the response that was given with it. -/
def answer (c : Config) : Extra → Event
  | handshake id _ => c.greeting id
  | reject response => .response response

/-- Whether the message can come after some history: a handshake must not be the first. -/
def Fits (history : List Occurrence) : Extra → Prop
  | handshake _ _ => ∃ r, .took (.request r) ∈ history ∧ r.isHandshake = true
  | reject _ => True

end Extra

/-! ### Putting things in -/

/-- The last list is the second one with the entries of the first put in, in their order. -/
inductive Splice {α : Type} : List α → List α → List α → Prop
  | nil : Splice [] [] []
  | keep {added as bs : List α} {a : α} :
      Splice added as bs → Splice added (as ++ [a]) (bs ++ [a])
  | put {added as bs : List α} {a : α} :
      Splice added as bs → Splice (added ++ [a]) as (bs ++ [a])

namespace Splice

variable {α β : Type} {added as bs : List α}

/-- An entry in front leaves the others where they are put in. -/
theorem cons (splice : Splice added as bs) (a : α) : Splice added (a :: as) (a :: bs) := by
  induction splice with
  | nil => exact .keep .nil
  | keep _ ih => exact .keep ih
  | put _ ih => exact .put ih

theorem append (splice : Splice added as bs) (more : List α) :
    Splice added (as ++ more) (bs ++ more) := by
  induction more using List.reverseRecOn with
  | nil => simpa
  | append_singleton more a ih => simpa only [List.append_assoc] using ih.keep

/-- Putting in and picking out come to the same in either order. -/
theorem filterMap (splice : Splice added as bs) (f : α → Option β) :
    Splice (added.filterMap f) (as.filterMap f) (bs.filterMap f) := by
  induction splice with
  | nil => exact .nil
  | keep _ ih =>
      rw [List.filterMap_append, List.filterMap_append]
      exact ih.append _
  | @put added as bs a _ ih =>
      rw [List.filterMap_append, List.filterMap_append]
      cases found : f a with
      | none => simpa [found] using ih
      | some b => simpa [found] using ih.put

theorem length (splice : Splice added as bs) : bs.length = added.length + as.length := by
  induction splice with
  | nil => rfl
  | keep _ ih | put _ ih =>
      simp only [List.length_append, ih]
      omega

/-- Events that are put in do not activate a gate. -/
theorem opened {added as bs : List (GateMessage Outgoing)} (splice : Splice added as bs)
    (events : ∀ m ∈ added, Gate.opened [m] = false) : Gate.opened bs = Gate.opened as := by
  induction splice with
  | nil => rfl
  | keep _ ih => rw [Gate.opened_append, Gate.opened_append, ih events]
  | put _ ih =>
      rw [Gate.opened_append, events _ (List.mem_append_right _ (.head _)), Bool.or_false]
      exact ih fun m mem => events m (List.mem_append_left _ mem)

end Splice

/-! ### Histories -/

/-- The second history is the first one with messages put in that only ask for an answer. Those
in the list have been answered; the other one, if any, has been taken. -/
inductive Inserts : List Occurrence → Option Extra → List Extra → List Occurrence → Prop
  | nil : Inserts [] none [] []
  /-- The same happens in both. -/
  | both {history later : List Occurrence} {added : List Extra} {o : Occurrence} :
      Inserts history none added later → Inserts (history ++ [o]) none added (later ++ [o])
  | take {history later : List Occurrence} {added : List Extra} {x : Extra} :
      Inserts history none added later → x.Fits history →
      Inserts history (some x) added (later ++ [.took x.message])
  /-- While the second broker has an answer to send, neither of the two does anything else. -/
  | meanwhile {history later : List Occurrence} {added : List Extra} {x : Extra}
      {o : Occurrence} : o.isOwn = false → Inserts history (some x) added later →
      Inserts (history ++ [o]) (some x) added (later ++ [o])
  | answer {history later : List Occurrence} {added : List Extra} {x : Extra} :
      Inserts history (some x) added later →
      Inserts history none (added ++ [x]) (later ++ [.worked])

variable {history later early : List Occurrence} {pending : Option Extra} {added : List Extra}

/-- Every point of the second history belongs to one of the first. -/
theorem Inserts.of_prefix (inserts : Inserts history pending added later) (h : early <+: later) :
    ∃ first x answered, first <+: history ∧ Inserts first x answered early := by
  induction inserts with
  | nil => exact ⟨[], none, [], List.prefix_rfl, List.prefix_nil.mp h ▸ .nil⟩
  | both inserts ih =>
      rcases List.prefix_concat_iff.mp h with rfl | old
      · exact ⟨_, _, _, List.prefix_rfl, inserts.both⟩
      · obtain ⟨first, x, answered, before, between⟩ := ih old
        exact ⟨first, x, answered, before.trans (List.prefix_append _ _), between⟩
  | take inserts fits ih =>
      rcases List.prefix_concat_iff.mp h with rfl | old
      · exact ⟨_, _, _, List.prefix_rfl, inserts.take fits⟩
      · exact ih old
  | meanwhile others inserts ih =>
      rcases List.prefix_concat_iff.mp h with rfl | old
      · exact ⟨_, _, _, List.prefix_rfl, inserts.meanwhile others⟩
      · obtain ⟨first, x, answered, before, between⟩ := ih old
        exact ⟨first, x, answered, before.trans (List.prefix_append _ _), between⟩
  | answer inserts ih =>
      rcases List.prefix_concat_iff.mp h with rfl | old
      · exact ⟨_, _, _, List.prefix_rfl, inserts.answer⟩
      · exact ih old

namespace Core

variable {c : Config} {k a a' b b' : Core} {o : Occurrence} {x : Extra}

/-! ### One history -/

/-- A history goes as far as its beginnings do. -/
theorem exists_replay_of_prefix (h : early <+: history)
    (replayed : k.replay history = some a) : ∃ b, k.replay early = some b := by
  obtain ⟨rest, rfl⟩ := h
  rw [replay_append] at replayed
  obtain ⟨b, first, -⟩ := Option.bind_eq_some_iff.mp replayed
  exact ⟨b, first⟩

/-- What the rest of a core comes to does not depend on what was handled and sent before; a
broker keeps its descriptor, and once it has been greeted it stays so. -/
structure Onward (k : Core) (o : Occurrence) (a : Core) : Prop where
  handled : a.handled = k.handled ++ o.message?.toList
  descriptor : a.broker.descriptor = k.broker.descriptor
  active : k.broker.connection = .active → a.broker.connection = .active
  greeted : ∀ r, o = .took (.request r) → r.isHandshake = true → a.broker.connection = .active
  frame : ∃ es, a.said = k.said ++ es ∧ ∀ hs said,
    next? { k with handled := hs, said } o =
      some { a with handled := hs ++ o.message?.toList, said := said ++ es }

/-- What no message takes from a broker, and what a handshake gives it. -/
theorem handle_keeps (b : Broker) (now : Duration) (m : BrokerMessage) :
    (b.handle now m).1.descriptor = b.descriptor ∧
      (b.connection = .active → (b.handle now m).1.connection = .active) ∧
      ∀ r, m = .request r → r.isHandshake = true → (b.handle now m).1.connection = .active := by
  have handles := b.handles_handle now m
  generalize (b.handle now m).1 = b', (b.handle now m).2 = acts at handles
  cases handles with
  | greet => exact ⟨rfl, fun _ => rfl, fun _ _ _ => rfl⟩
  | greetAgain active | route active => exact ⟨rfl, id, fun _ _ _ => active⟩
  | leave _ data =>
      refine ⟨rfl, id, fun r same handshake => ?_⟩
      cases same
      rw [Request.isHandshake, data] at handshake
      cases handshake
  | turnAway _ routable | park _ routable =>
      refine ⟨rfl, id, fun r same handshake => ?_⟩
      cases same
      rw [routable.not_handshake] at handshake
      cases handshake
  | _ => exact ⟨rfl, id, fun r same => by cases same⟩

/-- Nothing is handled, and the broker keeps its descriptor and its connection. -/
theorem Onward.of_frame (handled : a.handled = k.handled) (none_ : o.message? = none)
    (descriptor : a.broker.descriptor = k.broker.descriptor)
    (connection : a.broker.connection = k.broker.connection)
    (frame : ∃ es, a.said = k.said ++ es ∧ ∀ hs said,
      next? { k with handled := hs, said } o =
        some { a with handled := hs, said := said ++ es }) : Onward k o a := by
  obtain ⟨es, more, frame⟩ := frame
  refine ⟨by simpa [none_] using handled, descriptor, fun active => connection.trans active,
    fun r same => ?_, es, more, fun hs said => by simpa [none_] using frame hs said⟩
  rw [same] at none_
  cases none_

/-- What carrying out an act leads to does not depend on what was handled and sent before. -/
theorem onward_act {first : Act} {rest : List Act} (phase : k.phase = .serving (first :: rest))
    (done : k.act (first :: rest) = some a) : Onward k .worked a := by
  have work (hs : List BrokerMessage) (said : List (GateMessage Outgoing)) :
      next? { k with handled := hs, said } .worked =
        act { k with handled := hs, said } (first :: rest) := by
    simp only [next?, Core.work, phase]
  have silent (handled : a.handled = k.handled)
      (descriptor : a.broker.descriptor = k.broker.descriptor)
      (connection : a.broker.connection = k.broker.connection) (said : a.said = k.said)
      (frame : ∀ hs said, act { k with handled := hs, said } (first :: rest) =
        some { a with handled := hs, said }) : Onward k .worked a :=
    .of_frame handled rfl descriptor connection
      ⟨[], by rw [said, List.append_nil], fun hs said => by
        rw [work, frame, List.append_nil]⟩
  have louder {m : GateMessage Outgoing}
      (result : a = { k with phase := .serving rest, said := k.said ++ [m] })
      (frame : ∀ hs said, act { k with handled := hs, said } (first :: rest) =
        some { k with phase := .serving rest, handled := hs, said := said ++ [m] }) :
      Onward k .worked a := by
    subst result
    exact .of_frame rfl rfl rfl rfl ⟨[m], rfl, fun hs said => by rw [work, frame]⟩
  cases first <;> cases done
  · exact silent rfl rfl rfl rfl fun _ _ => rfl
  · exact louder rfl fun _ _ => rfl
  · exact silent rfl rfl rfl rfl fun _ _ => rfl
  · exact louder rfl fun _ _ => rfl
  · exact silent rfl rfl rfl rfl fun _ _ => rfl

theorem onward_recompile (phase : k.phase = .serving []) (done : k.recompile = some a) :
    Onward k .worked a := by
  unfold recompile at done
  split at done
  · rename_i due
    cases done
    refine .of_frame rfl rfl rfl rfl ⟨[], (List.append_nil _).symm, fun hs said => ?_⟩
    simp [next?, work, phase, recompile, due]
  · cases done

theorem onward_clean {ending : Ending} (phase : k.phase = .closing ending)
    (done : k.clean ending = some a) : Onward k .worked a := by
  obtain ⟨teardown, stepped, rfl⟩ := Option.map_eq_some_iff.mp done
  refine .of_frame rfl rfl rfl rfl ⟨[], (List.append_nil _).symm, fun hs said => ?_⟩
  simp [next?, work, phase, clean, stepped]

theorem onward (h : k.next? o = some a) : Onward k o a := by
  cases o with
  | took m =>
      simp only [next?] at h
      split at h
      · rename_i phase
        cases h
        obtain ⟨descriptor, active, greeted⟩ := handle_keeps k.broker k.now m
        refine ⟨rfl, descriptor, active, fun r same => ?_, [], (List.append_nil _).symm,
          fun hs said => ?_⟩
        · cases same
          exact greeted r rfl
        · simp [next?, phase, Occurrence.message?]
      · cases h
  | worked =>
      change k.work = some a at h
      cases phase : k.phase with
      | serving acts =>
          rw [work, phase] at h
          cases acts with
          | nil => exact onward_recompile phase h
          | cons first rest => exact onward_act phase h
      | closing ending =>
          rw [work, phase] at h
          exact onward_clean phase h
      | ended ending =>
          rw [work, phase] at h
          cases h
  | left =>
      simp only [next?] at h
      split at h
      · rename_i phase
        cases h
        refine .of_frame rfl rfl rfl rfl ⟨[], (List.append_nil _).symm, fun hs said => ?_⟩
        simp [next?, phase, leave]
      · cases h
  | arrived o =>
      cases h
      exact .of_frame rfl rfl rfl rfl ⟨[.event o], rfl, fun _ _ => rfl⟩
  | _ =>
      cases h
      exact .of_frame rfl rfl rfl rfl ⟨[], (List.append_nil _).symm, fun hs said => by
        simp [next?]⟩

theorem descriptor_replay (replayed : k.replay history = some a) :
    a.broker.descriptor = k.broker.descriptor := by
  induction history using List.reverseRecOn generalizing a with
  | nil =>
      cases replayed
      rfl
  | append_singleton history o ih =>
      rw [replay_concat] at replayed
      obtain ⟨b, first, last⟩ := Option.bind_eq_some_iff.mp replayed
      exact (onward last).descriptor.trans (ih first)

/-- What is handled in a replay is what the history takes. -/
theorem handled_replay (replayed : k.replay history = some a) :
    a.handled = k.handled ++ history.filterMap Occurrence.message? := by
  induction history using List.reverseRecOn generalizing a with
  | nil =>
      cases replayed
      exact (List.append_nil _).symm
  | append_singleton history o ih =>
      rw [replay_concat] at replayed
      obtain ⟨b, first, last⟩ := Option.bind_eq_some_iff.mp replayed
      rw [(onward last).handled, ih first, List.filterMap_append, List.append_assoc]
      cases taken : o.message? <;> simp [taken]

/-- After a handshake the broker is greeted. -/
theorem active_of_taken (replayed : k.replay history = some a) {r : Request}
    (taken : .took (.request r) ∈ history) (handshake : r.isHandshake = true) :
    a.broker.connection = .active := by
  induction history using List.reverseRecOn generalizing a with
  | nil => cases taken
  | append_singleton history o ih =>
      rw [replay_concat] at replayed
      obtain ⟨b, first, last⟩ := Option.bind_eq_some_iff.mp replayed
      rcases List.mem_append.mp taken with old | new
      · exact (onward last).active (ih first old)
      · exact (onward last).greeted r (List.mem_singleton.mp new).symm handshake

/-! ### Two histories -/

/-- What the two brokers are busy with: the same, or the second with an answer and the first with
nothing. -/
def Busy (c : Config) (first second : Phase) : Option Extra → Prop
  | none => second = first
  | some x => first = .serving [] ∧ second = .serving [.emit (x.answer c)]

/-- What two cores have in common, the second of which has taken some messages more. -/
structure Alike (c : Config) (pending : Option Extra) (added : List Extra) (a b : Core) :
    Prop where
  collaborators : b.collaborators = a.collaborators
  now : b.now = a.now
  broker : b.broker = a.broker
  teardown : b.teardown = a.teardown
  topology : b.topology = a.topology
  phase : Busy c a.phase b.phase pending
  greeted : firstHandshake? (b.handled.filterMap BrokerMessage.request?) =
    firstHandshake? (a.handled.filterMap BrokerMessage.request?)
  said : Splice (added.map fun x => .event (.ofBroker (x.answer c))) a.said b.said

/-- If two lists have the same first handshake, so they have with the same requests behind. -/
theorem firstHandshake?_append_congr {rs ss : List Request}
    (same : firstHandshake? ss = firstHandshake? rs) (more : List Request) :
    firstHandshake? (ss ++ more) = firstHandshake? (rs ++ more) := by
  simp only [firstHandshake?, List.find?_append] at same ⊢
  rw [same]

/-- Both do the same. -/
theorem Alike.both (alike : Alike c none added a b) (first : a.next? o = some a')
    (second : b.next? o = some b') : Alike c none added a' b' := by
  have onwardA := onward first
  have onwardB := onward second
  have greeted : firstHandshake? (b'.handled.filterMap BrokerMessage.request?) =
      firstHandshake? (a'.handled.filterMap BrokerMessage.request?) := by
    rw [onwardA.handled, onwardB.handled, List.filterMap_append, List.filterMap_append]
    exact firstHandshake?_append_congr alike.greeted _
  obtain ⟨es, said, frame⟩ := onwardA.frame
  have same : b = { a with handled := b.handled, said := b.said } := by
    obtain ⟨collaborators, now, broker, teardown, topology, phase, -, -⟩ := alike
    cases a
    cases b
    cases collaborators
    cases now
    cases broker
    cases teardown
    cases topology
    cases phase
    rfl
  rw [same, frame] at second
  cases second
  exact ⟨rfl, rfl, rfl, rfl, rfl, rfl, greeted, said ▸ alike.said.append es⟩

/-- Something happens while the second broker is busy with an answer. -/
theorem Alike.meanwhile (alike : Alike c (some x) added a b) (others : o.isOwn = false)
    (first : a.next? o = some a') (second : b.next? o = some b') :
    Alike c (some x) added a' b' := by
  cases o with
  | took | worked | left => cases others
  | passed =>
      cases first
      cases second
      exact { alike with now := congrArg (· + _) alike.now }
  | read | stopped =>
      cases first
      cases second
      exact { alike with topology := by simp only [alike.topology] }
  | arrived =>
      cases first
      cases second
      exact { alike with said := alike.said.append [_] }

/-- What a broker that has been greeted, if need be, makes of the message: its one answer. -/
theorem handle_extra {b : Broker} {now : Duration}
    (descriptor : b.descriptor = ⟨c.server.name, c.server.version⟩)
    (active : ∀ id params, x = .handshake id params → b.connection = .active) :
    b.handle now x.message = (b, [.emit (x.answer c)]) := by
  cases x with
  | handshake id params =>
      simp only [Extra.message, Extra.answer, Broker.handle, Broker.handleRequest,
        active id params rfl, Broker.greeting_eq descriptor]
  | reject response => rfl

/-- The first handshake is another one than a message that is put in. -/
theorem firstHandshake?_take (replayed : k.replay history = some a) (fits : x.Fits history) :
    firstHandshake? ((a.handled ++ [x.message]).filterMap BrokerMessage.request?) =
      firstHandshake? (a.handled.filterMap BrokerMessage.request?) := by
  rw [List.filterMap_append]
  cases x with
  | reject response => exact congrArg _ (List.append_nil _)
  | handshake id params =>
      obtain ⟨r, taken, handshake⟩ := fits
      have mem : r ∈ a.handled.filterMap BrokerMessage.request? := by
        refine List.mem_filterMap.mpr ⟨.request r, ?_, rfl⟩
        rw [handled_replay replayed]
        exact List.mem_append_right _ (List.mem_filterMap.mpr ⟨_, taken, rfl⟩)
      have found := List.find?_isSome.mpr ⟨r, mem, handshake⟩
      obtain ⟨first, found⟩ := Option.isSome_iff_exists.mp found
      exact (firstHandshake?_append_of_some found).trans found.symm

/-- The second broker takes a message more. -/
theorem Alike.take (alike : Alike c none added a b)
    (descriptor : k.broker.descriptor = ⟨c.server.name, c.server.version⟩)
    (replayed : k.replay history = some a) (fits : x.Fits history)
    (second : b.next? (.took x.message) = some b') : Alike c (some x) added a b' := by
  have broker : b.broker.handle b.now x.message = (b.broker, [.emit (x.answer c)]) := by
    rw [alike.broker]
    refine handle_extra ((descriptor_replay replayed).trans descriptor) fun id params same => ?_
    subst same
    obtain ⟨r, taken, handshake⟩ := fits
    exact active_of_taken replayed taken handshake
  simp only [next?, broker] at second
  split at second
  · rename_i idle
    cases second
    refine { alike with phase := ⟨?_, rfl⟩, greeted := ?_ }
    · exact (alike.phase : b.phase = a.phase) ▸ idle
    · rw [← firstHandshake?_take replayed fits, List.filterMap_append, List.filterMap_append]
      exact firstHandshake?_append_congr alike.greeted _
  · cases second

/-- The second broker sends the answer. -/
theorem Alike.answer (alike : Alike c (some x) added a b)
    (second : b.next? .worked = some b') : Alike c none (added ++ [x]) a b' := by
  obtain ⟨idle, busy⟩ := alike.phase
  simp only [next?, work, busy, act, Option.some.injEq] at second
  subst second
  refine { alike with phase := idle.symm, said := ?_ }
  rw [List.map_append]
  exact alike.said.put

/-- Messages that only ask for an answer change nothing but what the gate is sent: their answers,
in their order, among what it is sent anyway. -/
theorem alike_replay (descriptor : k.broker.descriptor = ⟨c.server.name, c.server.version⟩)
    (inserts : Inserts history pending added later) (first : k.replay history = some a)
    (second : k.replay later = some b) (silent : k.said = []) : Alike c pending added a b := by
  induction inserts generalizing a b with
  | nil =>
      cases first
      cases second
      exact ⟨rfl, rfl, rfl, rfl, rfl, rfl, rfl, silent ▸ .nil⟩
  | both _ ih =>
      rw [replay_concat] at first second
      obtain ⟨a, early, first⟩ := Option.bind_eq_some_iff.mp first
      obtain ⟨b, later, second⟩ := Option.bind_eq_some_iff.mp second
      exact (ih early later).both first second
  | take _ fits ih =>
      rw [replay_concat] at second
      obtain ⟨b, later, second⟩ := Option.bind_eq_some_iff.mp second
      exact (ih first later).take descriptor first fits second
  | meanwhile others _ ih =>
      rw [replay_concat] at first second
      obtain ⟨a, early, first⟩ := Option.bind_eq_some_iff.mp first
      obtain ⟨b, later, second⟩ := Option.bind_eq_some_iff.mp second
      exact (ih early later).meanwhile others first second
  | answer _ ih =>
      rw [replay_concat] at second
      obtain ⟨b, later, second⟩ := Option.bind_eq_some_iff.mp second
      exact (ih first later).answer second

end Core

namespace Session

variable {c : Config} {s t : Session} {moves moves' : List Move}

/-- The client reads, the gate has been activated before there was too much to hold back, and
nothing is on its way any more. -/
structure Served (c : Config) (s : Session) : Prop where
  there : s.client.isOpen = true
  opened : Gate.opened s.gate.inbox.accepted = true
  room : (Gate.before s.gate.inbox.accepted).length ≤ c.session.maxBufferedEvents.toNat
  drained : s.isDrained = true

/-- A client that has been served has got the reply, then all that has come to the gate. -/
theorem Served.accepted (served : s.Served c) (told : s.Told c) (attended : s.Attended) :
    ∃ r, firstHandshake? s.handledRequests = some r ∧
      s.client.accepted = .ofBroker (c.greeting r.id) :: s.gated := by
  have all := told.delivered_eq attended served.there served.drained served.opened served.room
  have loud (silent : s.Silent) : False := by
    have opened := served.opened
    rw [silent.gate] at opened
    cases opened
  cases told.stage with
  | awaiting _ _ silent => exact absurd silent loud
  | answering _ _ silent => exact absurd silent loud
  | @answered r _ greeted _ answered =>
      obtain ⟨others, accepted⟩ := answered.reply_first served.there
      rw [delivered, accepted, List.drop_one, List.tail_cons] at all
      exact ⟨r, greeted, all ▸ accepted⟩

/-- Until the gate is activated the client gets nothing through it. -/
theorem Told.delivered_of_closed (told : s.Told c)
    (closed : Gate.opened s.gate.inbox.accepted = false) : s.delivered = [] :=
  (told.flow.passed_of_closed
    (Gate.opened_of_prefix (s.gate.inbox.read_prefix) closed)).1

/-- A session does not end while its broker is busy with an answer. -/
theorem ending?_of_busy {pending : Option Extra} (busy : Core.Busy c s.phase t.phase pending) :
    t.ending? = s.ending? := by
  cases pending with
  | none => rw [ending?, ending?, busy]
  | some x => rw [ending?, ending?, busy.1, busy.2]

def answers (c : Config) (added : List Extra) : List Outgoing :=
  added.map fun x => .ofBroker (x.answer c)

/-- What has come to the gate of two sessions whose cores are alike. -/
theorem splice_gated {pending : Option Extra} {added : List Extra}
    {said told : List (GateMessage Outgoing)}
    (alike : Core.Alike c pending added (s.core said) (t.core told))
    (first : said = s.gate.inbox.accepted) (second : told = t.gate.inbox.accepted) :
    Splice (answers c added) s.gated t.gated := by
  have events := alike.said.filterMap GateMessage.event?
  simp only [core, first, second, List.filterMap_map] at events
  rw [answers, ← List.filterMap_eq_map]
  exact events

/-- What messages that only ask for an answer leave as it is, and where their answers get. -/
structure Inert (c : Config) (s : Session) (moves moves' : List Move) (pending : Option Extra)
    (added : List Extra) : Prop where
  /-- The parked requests, the connection, the debouncer and the watchers. -/
  broker : (s.run moves').broker = (s.run moves).broker
  /-- What the workers were sent, and how much of it they have read. -/
  topology : (s.run moves').topology = (s.run moves).topology
  /-- The calls of the teardown. -/
  teardown : (s.run moves').teardown = (s.run moves).teardown
  ending : (s.run moves').ending? = (s.run moves).ending?
  /-- All of that holds from point to point. -/
  course : ∀ early, early <+: s.history moves' → ∃ first x answered a b,
    first <+: s.history moves ∧ Inserts first x answered early ∧
    (s.core []).replay first = some a ∧ (s.core []).replay early = some b ∧
    Core.Alike c x answered a b
  /-- The answers come to the gate among what comes to it anyway. -/
  gated : (s.run moves).client.isOpen = true → (s.run moves').client.isOpen = true →
    Splice (answers c added) (s.run moves).gated (s.run moves').gated
  /-- In the same way they get to the client. -/
  client : (s.run moves).Served c → (s.run moves').Served c →
    Splice (answers c added) (s.run moves).client.accepted (s.run moves').client.accepted
  /-- Before the activation the client gets nothing but the reply, with them or without. -/
  silent : (s.run moves).client.isOpen = true → (s.run moves').client.isOpen = true →
    Gate.opened (s.run moves).gate.inbox.accepted = false →
    (s.run moves).delivered = [] ∧ (s.run moves').delivered = []

end Session

/-! ### Main statement -/

open Session in
/-- **Repeated handshakes and rejected lines are inert.** If the history of one run is that of
another with such messages put in, then the workers get the same, the broker and the teardown
are in the same state at each point, and the session ends the same way. The answers, one for
each message, come to the gate in the order of the messages among the same events, and so to
the client once the gate has been activated with room for all that came before. -/
theorem extra_messages_inert {c : Config} {f : Staffing} {search files : Behaviour} {size : Nat}
    {s : Session} (started : start c f search files size = .ok s) {moves moves' : List Move}
    {pending : Option Extra} {added : List Extra}
    (inserts : Inserts (s.history moves) pending added (s.history moves')) :
    Inert c s moves moves' pending added := by
  have fresh := fresh_start started
  obtain ⟨out, reached⟩ := reaches_run (fun _ => True) s moves fun _ _ _ => trivial
  obtain ⟨out', reached'⟩ := reaches_run (fun _ => True) s moves' fun _ _ _ => trivial
  obtain ⟨said, replayed, tells⟩ := fresh.replayed moves
  obtain ⟨said', replayed', tells'⟩ := fresh.replayed moves'
  have alike := Core.alike_replay fresh.descriptor inserts replayed replayed' rfl
  have gated (there : (s.run moves).client.isOpen = true)
      (there' : (s.run moves').client.isOpen = true) :=
    splice_gated alike (tells there) (tells' there')
  refine ⟨alike.broker, alike.topology, alike.teardown, ?_, ?_, gated, ?_, ?_⟩
  · exact ending?_of_busy alike.phase
  · intro early h
    obtain ⟨first, x, answered, before, between⟩ := inserts.of_prefix h
    obtain ⟨a, replayedFirst⟩ := Core.exists_replay_of_prefix before replayed
    obtain ⟨b, replayedEarly⟩ := Core.exists_replay_of_prefix h replayed'
    exact ⟨first, x, answered, a, b, before, between, replayedFirst, replayedEarly,
      Core.alike_replay fresh.descriptor between replayedFirst replayedEarly rfl⟩
  · intro served served'
    obtain ⟨r, greeted, accepted⟩ := served.accepted (fresh.told_of_reaches reached)
      (fresh.output_of_reaches reached).attended
    obtain ⟨r', greeted', accepted'⟩ := served'.accepted (fresh.told_of_reaches reached')
      (fresh.output_of_reaches reached').attended
    obtain rfl : r' = r := Option.some.inj (greeted'.symm.trans (alike.greeted.trans greeted))
    rw [accepted, accepted']
    exact (gated served.there served'.there).cons _
  · intro there there' closed
    refine ⟨(fresh.told_of_reaches reached).delivered_of_closed closed,
      (fresh.told_of_reaches reached').delivered_of_closed ?_⟩
    have same := alike.said.opened fun m mem => by
      obtain ⟨x, -, rfl⟩ := List.mem_map.mp mem
      rfl
    rw [← tells' there']
    exact same.trans ((congrArg _ (tells there)).trans closed)

open Session in
/-- A rejected line comes before everything and a second handshake after the first one. The
search that is parked, the readiness of a worker and the first handshake are as before. -/
theorem extra_messages_inert_of_line_and_handshake :
    ∃ s moves moves' added t t',
      start .default ⟨.mixed, .replicate (some 1)⟩ .hangs .hangs 8 = .ok s ∧
      moves = [.send (.request ⟨"1", .search ⟨"x", none⟩⟩), .step .broker,
        .emit .docs (.ready .docs), .step .support, .step .support,
        .send (.request ⟨"2", .handshake ⟨none, none, none⟩⟩), .step .broker] ++
        List.replicate 4 (.step .gate) ∧
      moves' = [.send (.reject ⟨"", none, some ⟨ErrorCode.parseError, "expected value"⟩⟩),
        .step .broker, .send (.request ⟨"1", .search ⟨"x", none⟩⟩), .step .broker,
        .emit .docs (.ready .docs), .step .support, .step .support,
        .send (.request ⟨"2", .handshake ⟨none, none, none⟩⟩), .step .broker,
        .send (.request ⟨"3", .handshake ⟨none, none, none⟩⟩), .step .broker] ++
        List.replicate 7 (.step .gate) ∧
      added = [.reject ⟨"", none, some ⟨ErrorCode.parseError, "expected value"⟩⟩,
        .handshake "3" ⟨none, none, none⟩] ∧
      s.run moves = t ∧ s.run moves' = t' ∧
      Inserts (s.history moves) none added (s.history moves') ∧
      Inert .default s moves moves' none added ∧ t.Served .default ∧ t'.Served .default ∧
      t.client.accepted =
        [.ofBroker (Config.default.greeting "2"), ⟨.worker .docs, .ready .docs⟩] ∧
      t'.client.accepted = [.ofBroker (Config.default.greeting "2"),
        .ofBroker (.response ⟨"", none, some ⟨ErrorCode.parseError, "expected value"⟩⟩),
        ⟨.worker .docs, .ready .docs⟩, .ofBroker (Config.default.greeting "3")] := by
  have started : start .default ⟨.mixed, .replicate (some 1)⟩ .hangs .hangs 8 = .ok _ :=
    start_of_isSome (by decide +kernel)
  refine ⟨_, _, _, _, _, _, started, rfl, rfl, rfl, rfl, rfl, ?_⟩
  suffices inserts : Inserts _ _ _ _ from
    ⟨inserts, extra_messages_inert started inserts,
      ⟨by decide +kernel, by decide +kernel, by decide +kernel, by decide +kernel⟩,
      ⟨by decide +kernel, by decide +kernel, by decide +kernel, by decide +kernel⟩,
      by decide +kernel, by decide +kernel⟩
  have line := Inserts.nil.take (x := .reject ⟨"", none, some ⟨ErrorCode.parseError,
    "expected value"⟩⟩) trivial
  have before := (line.answer.both (o := .took (.request ⟨"1", .search ⟨"x", none⟩⟩))).both
    (o := .arrived ⟨.worker .docs, .ready .docs⟩)
  have greeted := (((before.both (o := .took (.request ⟨"2", .handshake ⟨none, none, none⟩⟩))).both
    (o := .worked)).both (o := .worked)).both (o := .worked)
  have again := greeted.take (x := .handshake "3" ⟨none, none, none⟩)
    ⟨⟨"2", .handshake ⟨none, none, none⟩⟩, by simp, rfl⟩
  refine cast (congrArg₂ (Inserts · none _ ·) ?_ ?_) again.answer <;> decide +kernel

open Session in
/-- Without a handshake the answer does not get to the client: after a single rejected line
nothing is on its way any more, and the client has got nothing. -/
theorem rejected_line_unanswered :
    ∃ s moves' x t', start .default ⟨.mixed, .replicate (some 1)⟩ .hangs .hangs 8 = .ok s ∧
      moves' = [.send (.reject ⟨"", none, some ⟨ErrorCode.parseError, "expected value"⟩⟩),
        .step .broker, .step .gate] ∧
      x = .reject ⟨"", none, some ⟨ErrorCode.parseError, "expected value"⟩⟩ ∧
      s.run moves' = t' ∧ Inserts (s.history []) none [x] (s.history moves') ∧
      s.client.isOpen = true ∧ t'.client.isOpen = true ∧
      s.isDrained = true ∧ t'.isDrained = true ∧
      (Gate.before s.gate.inbox.accepted).length ≤
        Config.default.session.maxBufferedEvents.toNat ∧
      (Gate.before t'.gate.inbox.accepted).length ≤
        Config.default.session.maxBufferedEvents.toNat ∧
      t'.client.accepted = [] ∧
      ¬ Splice (answers .default [x]) s.client.accepted t'.client.accepted := by
  have started : start .default ⟨.mixed, .replicate (some 1)⟩ .hangs .hangs 8 = .ok _ :=
    start_of_isSome (by decide +kernel)
  refine ⟨_, _, _, _, started, rfl, rfl, rfl, ?_, by decide +kernel, by decide +kernel,
    by decide +kernel, by decide +kernel, by decide +kernel, by decide +kernel,
    by decide +kernel, fun splice => ?_⟩
  · have line := Inserts.nil.take (x := .reject ⟨"", none, some ⟨ErrorCode.parseError,
      "expected value"⟩⟩) trivial
    refine cast (congrArg₂ (Inserts · none _ ·) ?_ ?_) line.answer <;> decide +kernel
  · have length := splice.length
    revert length
    decide +kernel

end SessionBroker
