/-
The handler processes of a server, and where a request goes that another server
pushes.

A session is at the handler its client reached, and `rpc_push` comes in at any
of them. So each handler keeps which handler has which session, as the others
tell it in its event queue, and sends on what is for another. The steps of all
handlers interleave; what one process puts into an event queue comes out in
order, but not in any order with what the others put there. A request that the
session's task has popped, and holds until the session comes back for it, is
still in the session's queue here: it is the next one taken.

`Step.view`: seen from one session, a step of the server is a step of that
session's protocol, or none.
-/
import Mathlib.Logic.Function.Basic
import Mathlib.Logic.Relation
import Blitzwing.Lib.Dict

namespace Blitzwing

namespace Petals

variable {n : Nat} {Tensor : Type}

/-- A request's tensors, and the `step_id` of its metadata. -/
structure ExpertRequest (Tensor : Type) where
  tensors : List Tensor
  stepId : Option String

/-- What a handler tells another of a session. -/
inductive HandlerEvent (n : Nat) (Tensor : Type)
  | newSession (handlerIndex : Fin n)
  | endSession (handlerIndex : Fin n)
  | push (request : ExpertRequest Tensor)

/-- A pushed request, and the handler `rpc_push` came in at. -/
abbrev Pushed (n : Nat) (Tensor : Type) := Fin n × ExpertRequest Tensor

/-- A `TransformerConnectionHandler`'s sessions, and those it knows of. -/
structure ConnectionHandler (n : Nat) (Tensor : Type) where
  sessionQueues : Dict String (List (Pushed n Tensor))
  sessionHandlers : Dict String (Fin n)

/-- What `_put_into_session_queue` does with a request. -/
inductive Put (n : Nat) (Tensor : Type)
  | ignored
  | here (self : ConnectionHandler n Tensor)
  | away (handlerIndex : Fin n)

namespace ConnectionHandler

variable (self : ConnectionHandler n Tensor) (handlerIndex : Fin n) (sessionId : String)

/-- `_managed_session`, on the way in; `none` is its assertion. -/
def enterSession : Option (ConnectionHandler n Tensor) :=
  if self.sessionQueues.contains sessionId then .none
  else .some
    { sessionQueues := self.sessionQueues.set sessionId []
      sessionHandlers := self.sessionHandlers.set sessionId handlerIndex }

/-- `_managed_session`, on the way out; `none` is a `KeyError`. -/
def exitSession : Option (ConnectionHandler n Tensor) :=
  if self.sessionQueues.contains sessionId && self.sessionHandlers.contains sessionId then .some
    { sessionQueues := self.sessionQueues.erase sessionId
      sessionHandlers := self.sessionHandlers.erase sessionId }
  else .none

/-- `_put_into_session_queue`; `none` is a `KeyError`. -/
def putIntoSessionQueue (request : ExpertRequest Tensor) : Option (Put n Tensor) :=
  match self.sessionHandlers.get? sessionId with
  | .none => .some .ignored
  | .some index =>
    if index = handlerIndex then
      (self.sessionQueues.get? sessionId).map fun queue =>
        .here { self with sessionQueues := self.sessionQueues.set sessionId (queue ++ [(handlerIndex, request)]) }
    else .some (.away index)

/-- The queue `_get_from_session_queue` waits at; `none` is its assertion, or a
`KeyError`. -/
def getFromSessionQueue : Option (List (Pushed n Tensor)) :=
  if self.sessionHandlers.get? sessionId = .some handlerIndex then self.sessionQueues.get? sessionId else .none

/-- `_listen_to_event_queue`, on one event from the handler `source`. -/
def listen (source : Fin n) : HandlerEvent n Tensor → ConnectionHandler n Tensor
  | .newSession index => { self with sessionHandlers := self.sessionHandlers.set sessionId index }
  | .endSession _ => { self with sessionHandlers := self.sessionHandlers.erase sessionId }
  | .push request =>
    match self.sessionQueues.get? sessionId with
    | .none => self
    | .some queue => { self with sessionQueues := self.sessionQueues.set sessionId (queue ++ [(source, request)]) }

theorem enterSession_eq_some {self' : ConnectionHandler n Tensor} (h : self.enterSession handlerIndex sessionId = .some self') :
    self' =
      { sessionQueues := self.sessionQueues.set sessionId []
        sessionHandlers := self.sessionHandlers.set sessionId handlerIndex } := by
  unfold enterSession at h
  split at h
  · cases h
  · exact (Option.some.inj h).symm

theorem exitSession_eq_some {self' : ConnectionHandler n Tensor} (h : self.exitSession sessionId = .some self') :
    self' =
      { sessionQueues := self.sessionQueues.erase sessionId
        sessionHandlers := self.sessionHandlers.erase sessionId } := by
  unfold exitSession at h
  split at h
  · exact (Option.some.inj h).symm
  · cases h

section put

variable {self handlerIndex sessionId} {request : ExpertRequest Tensor}

theorem put_ignored (h : self.putIntoSessionQueue handlerIndex sessionId request = .some .ignored) :
    self.sessionHandlers.get? sessionId = .none := by
  unfold putIntoSessionQueue at h
  split at h
  · assumption
  · split at h
    · simp at h
    · cases h

theorem put_here {self' : ConnectionHandler n Tensor}
    (h : self.putIntoSessionQueue handlerIndex sessionId request = .some (.here self')) :
    ∃ queue, self.sessionHandlers.get? sessionId = .some handlerIndex ∧
      self.sessionQueues.get? sessionId = .some queue ∧
      self' = { self with sessionQueues := self.sessionQueues.set sessionId (queue ++ [(handlerIndex, request)]) } := by
  unfold putIntoSessionQueue at h
  split at h
  · cases h
  · next htold =>
    split at h
    · next hown =>
      obtain ⟨queue, hqueue, h⟩ := Option.map_eq_some_iff.1 h
      exact ⟨queue, hown ▸ htold, hqueue, (Put.here.inj h).symm⟩
    · cases h

theorem put_away {index : Fin n} (h : self.putIntoSessionQueue handlerIndex sessionId request = .some (.away index)) :
    self.sessionHandlers.get? sessionId = .some index ∧ index ≠ handlerIndex := by
  unfold putIntoSessionQueue at h
  split at h
  · cases h
  · next htold =>
    split at h
    · simp at h
    · next hne =>
      cases h
      exact ⟨htold, hne⟩

theorem get_eq_some {queue : List (Pushed n Tensor)} (h : self.getFromSessionQueue handlerIndex sessionId = .some queue) :
    self.sessionQueues.get? sessionId = .some queue := by
  unfold getFromSessionQueue at h
  split at h
  · exact h
  · cases h

end put

/-- What an event is to other sessions: nothing. -/
theorem listen_other (source : Fin n) (event : HandlerEvent n Tensor) {id : String} (hne : id ≠ sessionId) :
    (self.listen sessionId source event).sessionQueues.get? id = self.sessionQueues.get? id ∧
      (self.listen sessionId source event).sessionHandlers.get? id = self.sessionHandlers.get? id := by
  cases event with
  | newSession index => exact ⟨rfl, Dict.get?_set_ne hne⟩
  | endSession index => exact ⟨rfl, Dict.get?_erase_ne hne⟩
  | push request =>
    simp only [listen]
    split
    · exact ⟨rfl, rfl⟩
    · exact ⟨Dict.get?_set_ne hne, rfl⟩

theorem listen_push (source : Fin n) (request : ExpertRequest Tensor) :
    (self.listen sessionId source (.push request)).sessionQueues.get? sessionId =
        (self.sessionQueues.get? sessionId).map (· ++ [(source, request)]) ∧
      (self.listen sessionId source (.push request)).sessionHandlers = self.sessionHandlers := by
  simp only [listen]
  split
  · next hqueue => exact ⟨by rw [hqueue]; rfl, rfl⟩
  · next queue hqueue => exact ⟨by rw [hqueue]; simp, rfl⟩

end ConnectionHandler

/-- Where an `_iterate_inference_steps` is: at which handler, and whether in its
`with` block still. -/
inductive SessionPhase (n : Nat)
  | fresh
  | running (handlerIndex : Fin n)
  | closed (handlerIndex : Fin n)

/-- A server's handlers. `eventQueues p q` is what `p` put into `q`'s queue and
`q` has not read. The rest is what came to pass: which requests of a session
were pushed at each handler and which it ignored, and what arrived at the
session, from its client (`none`) or pushed at a handler. -/
structure ServerHandlers (n : Nat) (Tensor : Type) where
  handlers : Fin n → ConnectionHandler n Tensor
  eventQueues : Fin n → Fin n → List (String × HandlerEvent n Tensor)
  phases : String → SessionPhase n
  pushed : Fin n → String → List (ExpertRequest Tensor)
  ignored : Fin n → String → List (ExpertRequest Tensor)
  arrived : String → List (Option (Fin n) × ExpertRequest Tensor)

/-- Add to what is in the queues that `into` picks. -/
def enqueue {α : Type} (queues : Fin n → Fin n → List α) (into : Fin n → Fin n → Bool) (event : α) :
    Fin n → Fin n → List α :=
  fun p q => if into p q then queues p q ++ [event] else queues p q

/-- Into the event queues of all others. -/
def others (h p q : Fin n) : Bool := p = h && q ≠ h

def oneQueue (source target p q : Fin n) : Bool := p = source && q = target

/-- What is left when `target` has read an event from `source`. -/
def dequeue {α : Type} (queues : Fin n → Fin n → List α) (source target : Fin n) (rest : List α) :
    Fin n → Fin n → List α :=
  fun p q => if p = source ∧ q = target then rest else queues p q

/-- Note a request at one handler, of one session. -/
def note (log : Fin n → String → List (ExpertRequest Tensor)) (p : Fin n) (sessionId : String)
    (request : ExpertRequest Tensor) : Fin n → String → List (ExpertRequest Tensor) :=
  fun q id => if q = p ∧ id = sessionId then log q id ++ [request] else log q id

namespace ServerHandlers

def initial (n : Nat) (Tensor : Type) : ServerHandlers n Tensor where
  handlers _ := ⟨.empty, .empty⟩
  eventQueues _ _ := []
  phases _ := .fresh
  pushed _ _ := []
  ignored _ _ := []
  arrived _ := []

variable (s : ServerHandlers n Tensor)

/-- A step of one handler: of a session at it, of an `rpc_push`, or of the task
that listens to its event queue. A session's id is never that of another: the
client draws them with `uuid4`. -/
inductive Step : ServerHandlers n Tensor → Prop
  | enter {h : Fin n} {id : String} (request : ExpertRequest Tensor) {self : ConnectionHandler n Tensor}
      (hnew : s.phases id = .fresh) (henter : (s.handlers h).enterSession h id = .some self) :
      Step
        { s with
          handlers := Function.update s.handlers h self
          eventQueues := enqueue s.eventQueues (others h) (id, .newSession h)
          phases := Function.update s.phases id (.running h)
          arrived := Function.update s.arrived id [(.none, request)] }
  | request {h : Fin n} {id : String} (request : ExpertRequest Tensor) (hin : s.phases id = .running h) :
      Step { s with arrived := Function.update s.arrived id (s.arrived id ++ [(.none, request)]) }
  | get {h p : Fin n} {id : String} {request : ExpertRequest Tensor} {queue : List (Pushed n Tensor)}
      (hin : s.phases id = .running h)
      (hget : (s.handlers h).getFromSessionQueue h id = .some ((p, request) :: queue)) :
      Step
        { s with
          handlers := Function.update s.handlers h
            { s.handlers h with sessionQueues := (s.handlers h).sessionQueues.set id queue }
          arrived := Function.update s.arrived id (s.arrived id ++ [(.some p, request)]) }
  | exit {h : Fin n} {id : String} {self : ConnectionHandler n Tensor} (hin : s.phases id = .running h)
      (hexit : (s.handlers h).exitSession id = .some self) :
      Step
        { s with
          handlers := Function.update s.handlers h self
          eventQueues := enqueue s.eventQueues (others h) (id, .endSession h)
          phases := Function.update s.phases id (.closed h) }
  | ignore {p : Fin n} {id : String} {request : ExpertRequest Tensor}
      (hput : (s.handlers p).putIntoSessionQueue p id request = .some .ignored) :
      Step { s with pushed := note s.pushed p id request, ignored := note s.ignored p id request }
  | here {p : Fin n} {id : String} {request : ExpertRequest Tensor} {self : ConnectionHandler n Tensor}
      (hput : (s.handlers p).putIntoSessionQueue p id request = .some (.here self)) :
      Step { s with handlers := Function.update s.handlers p self, pushed := note s.pushed p id request }
  | away {p h : Fin n} {id : String} {request : ExpertRequest Tensor}
      (hput : (s.handlers p).putIntoSessionQueue p id request = .some (.away h)) :
      Step
        { s with
          eventQueues := enqueue s.eventQueues (oneQueue p h) (id, .push request)
          pushed := note s.pushed p id request }
  | listen {p h : Fin n} {id : String} {event : HandlerEvent n Tensor} {rest : List (String × HandlerEvent n Tensor)}
      (hread : s.eventQueues p h = (id, event) :: rest) :
      Step
        { s with
          handlers := Function.update s.handlers h ((s.handlers h).listen id p event)
          eventQueues := dequeue s.eventQueues p h rest }

/-- What the handlers can come to. -/
def Reachable : Prop := Relation.ReflTransGen (fun s s' : ServerHandlers n Tensor => s.Step s') (initial n Tensor) s

end ServerHandlers

/-! ## One session -/

/-- The events of one session in a queue. -/
def sessionEvents (id : String) (queue : List (String × HandlerEvent n Tensor)) : List (HandlerEvent n Tensor) :=
  (queue.filter (·.1 = id)).map Prod.snd

theorem sessionEvents_cons (id id' : String) (event : HandlerEvent n Tensor)
    (queue : List (String × HandlerEvent n Tensor)) :
    sessionEvents id ((id', event) :: queue) =
      if id' = id then event :: sessionEvents id queue else sessionEvents id queue := by
  by_cases h : id' = id <;> simp [sessionEvents, h]

theorem sessionEvents_concat (id id' : String) (event : HandlerEvent n Tensor)
    (queue : List (String × HandlerEvent n Tensor)) :
    sessionEvents id (queue ++ [(id', event)]) =
      if id' = id then sessionEvents id queue ++ [event] else sessionEvents id queue := by
  by_cases h : id' = id <;> simp [sessionEvents, h]

/-- What there is of one session, at each handler and in the event queues. -/
@[ext] structure SessionView (n : Nat) (Tensor : Type) where
  phase : SessionPhase n
  queues : Fin n → Option (List (Pushed n Tensor))
  told : Fin n → Option (Fin n)
  events : Fin n → Fin n → List (HandlerEvent n Tensor)
  pushed : Fin n → List (ExpertRequest Tensor)
  ignored : Fin n → List (ExpertRequest Tensor)
  arrived : List (Option (Fin n) × ExpertRequest Tensor)

namespace SessionView

variable (v : SessionView n Tensor)

def push (p : Fin n) (request : ExpertRequest Tensor) : SessionView n Tensor :=
  { v with pushed := Function.update v.pushed p (v.pushed p ++ [request]) }

/-- What the event does that `h` reads from `p`. -/
def hear (p h : Fin n) (rest : List (HandlerEvent n Tensor)) : HandlerEvent n Tensor → SessionView n Tensor
  | .newSession index =>
    { v with events := dequeue v.events p h rest, told := Function.update v.told h (.some index) }
  | .endSession _ => { v with events := dequeue v.events p h rest, told := Function.update v.told h .none }
  | .push request =>
    { v with
      events := dequeue v.events p h rest
      queues := Function.update v.queues h ((v.queues h).map (· ++ [(p, request)])) }

/-- The protocol of one session. -/
inductive Step : SessionView n Tensor → Prop
  | enter {h : Fin n} (request : ExpertRequest Tensor) (hnew : v.phase = .fresh) :
      Step
        { v with
          phase := .running h
          queues := Function.update v.queues h (.some [])
          told := Function.update v.told h (.some h)
          events := enqueue v.events (others h) (.newSession h)
          arrived := [(.none, request)] }
  | request {h : Fin n} (request : ExpertRequest Tensor) (hin : v.phase = .running h) :
      Step { v with arrived := v.arrived ++ [(.none, request)] }
  | get {h p : Fin n} {request : ExpertRequest Tensor} {queue : List (Pushed n Tensor)} (hin : v.phase = .running h)
      (hqueue : v.queues h = .some ((p, request) :: queue)) :
      Step
        { v with
          queues := Function.update v.queues h (.some queue)
          arrived := v.arrived ++ [(.some p, request)] }
  | exit {h : Fin n} (hin : v.phase = .running h) :
      Step
        { v with
          phase := .closed h
          queues := Function.update v.queues h .none
          told := Function.update v.told h .none
          events := enqueue v.events (others h) (.endSession h) }
  | ignore {p : Fin n} (request : ExpertRequest Tensor) (htold : v.told p = .none) :
      Step { v.push p request with ignored := Function.update v.ignored p (v.ignored p ++ [request]) }
  | here {p : Fin n} (request : ExpertRequest Tensor) {queue : List (Pushed n Tensor)} (htold : v.told p = .some p)
      (hqueue : v.queues p = .some queue) :
      Step { v.push p request with queues := Function.update v.queues p (.some (queue ++ [(p, request)])) }
  | away {p h : Fin n} (request : ExpertRequest Tensor) (htold : v.told p = .some h) (hne : h ≠ p) :
      Step { v.push p request with events := enqueue v.events (oneQueue p h) (.push request) }
  | listen {p h : Fin n} {event : HandlerEvent n Tensor} {rest : List (HandlerEvent n Tensor)}
      (hread : v.events p h = event :: rest) : Step (v.hear p h rest event)

end SessionView

namespace ServerHandlers

variable {s s' : ServerHandlers n Tensor}

def view (s : ServerHandlers n Tensor) (id : String) : SessionView n Tensor where
  phase := s.phases id
  queues p := (s.handlers p).sessionQueues.get? id
  told p := (s.handlers p).sessionHandlers.get? id
  events p q := sessionEvents id (s.eventQueues p q)
  pushed p := s.pushed p id
  ignored p := s.ignored p id
  arrived := s.arrived id

/-! ### What each step is seen as -/

theorem update_queues (s : ServerHandlers n Tensor) (h : Fin n) (self : ConnectionHandler n Tensor) (id : String) :
    (fun p => ((Function.update s.handlers h self) p).sessionQueues.get? id) =
      Function.update (s.view id).queues h (self.sessionQueues.get? id) := by
  funext p
  by_cases hp : p = h
  · subst hp; simp
  · simp [hp, view]

theorem update_told (s : ServerHandlers n Tensor) (h : Fin n) (self : ConnectionHandler n Tensor) (id : String) :
    (fun p => ((Function.update s.handlers h self) p).sessionHandlers.get? id) =
      Function.update (s.view id).told h (self.sessionHandlers.get? id) := by
  funext p
  by_cases hp : p = h
  · subst hp; simp
  · simp [hp, view]

theorem enqueue_events (queues : Fin n → Fin n → List (String × HandlerEvent n Tensor)) (into : Fin n → Fin n → Bool)
    (id id' : String) (event : HandlerEvent n Tensor) :
    (fun p q => sessionEvents id (enqueue queues into (id', event) p q)) =
      if id' = id then enqueue (fun p q => sessionEvents id (queues p q)) into event
      else fun p q => sessionEvents id (queues p q) := by
  by_cases h : id' = id
  · funext p q
    cases hinto : into p q <;> simp [enqueue, hinto, h, sessionEvents_concat]
  · funext p q
    cases hinto : into p q <;> simp [enqueue, hinto, h, sessionEvents_concat]

theorem dequeue_events (queues : Fin n → Fin n → List (String × HandlerEvent n Tensor)) (p h : Fin n)
    (rest : List (String × HandlerEvent n Tensor)) (id : String) :
    (fun a b => sessionEvents id (dequeue queues p h rest a b)) =
      dequeue (fun a b => sessionEvents id (queues a b)) p h (sessionEvents id rest) := by
  funext a b
  simp only [dequeue]
  split <;> rfl

theorem note_self (log : Fin n → String → List (ExpertRequest Tensor)) (p : Fin n) (id : String)
    (request : ExpertRequest Tensor) :
    (fun q => note log p id request q id) = Function.update (fun q => log q id) p (log p id ++ [request]) := by
  funext q
  by_cases hq : q = p
  · subst hq; simp [note]
  · simp [note, hq]

theorem note_other (log : Fin n → String → List (ExpertRequest Tensor)) (p : Fin n) {id id' : String}
    (request : ExpertRequest Tensor) (hne : id ≠ id') : (fun q => note log p id' request q id) = fun q => log q id := by
  funext q
  simp [note, hne]

/-- A step is a step of the session it is about, and no other's. -/
theorem Step.view (h : s.Step s') (id : String) : s'.view id = s.view id ∨ (s.view id).Step (s'.view id) := by
  cases h with
  | @enter h sid request self hnew henter =>
    obtain rfl := ConnectionHandler.enterSession_eq_some _ _ _ henter
    by_cases hid : id = sid
    · subst hid
      refine .inr ?_
      convert SessionView.Step.enter (v := s.view id) (h := h) request hnew using 1
      ext1 <;> simp [ServerHandlers.view, update_queues, update_told, enqueue_events]
    · refine .inl ?_
      ext1 <;> simp [ServerHandlers.view, update_queues, update_told, enqueue_events, Dict.get?_set_ne, hid,
        Ne.symm hid]
  | @request h sid request hin =>
    by_cases hid : id = sid
    · subst hid
      refine .inr ?_
      convert SessionView.Step.request (v := s.view id) request hin using 1
      simp [ServerHandlers.view]
    · refine .inl ?_
      simp [ServerHandlers.view, hid]
  | @get h p sid request queue hin hget =>
    by_cases hid : id = sid
    · subst hid
      refine .inr ?_
      convert SessionView.Step.get (v := s.view id) hin (ConnectionHandler.get_eq_some hget) using 1
      ext1 <;> simp [ServerHandlers.view, update_queues, update_told]
    · refine .inl ?_
      ext1 <;> simp [ServerHandlers.view, update_queues, update_told, Dict.get?_set_ne, hid]
  | @exit h sid self hin hexit =>
    obtain rfl := ConnectionHandler.exitSession_eq_some _ _ hexit
    by_cases hid : id = sid
    · subst hid
      refine .inr ?_
      convert SessionView.Step.exit (v := s.view id) hin using 1
      ext1 <;> simp [ServerHandlers.view, update_queues, update_told, enqueue_events]
    · refine .inl ?_
      ext1 <;> simp [ServerHandlers.view, update_queues, update_told, enqueue_events, Dict.get?_erase_ne, hid,
        Ne.symm hid]
  | @ignore p sid request hput =>
    by_cases hid : id = sid
    · subst hid
      refine .inr ?_
      convert SessionView.Step.ignore (v := s.view id) request (ConnectionHandler.put_ignored hput) using 1
      ext1 <;> simp [ServerHandlers.view, SessionView.push, note_self]
    · refine .inl ?_
      ext1 <;> simp [ServerHandlers.view, note_other, hid]
  | @here p sid request self hput =>
    obtain ⟨queue, htold, hqueue, rfl⟩ := ConnectionHandler.put_here hput
    by_cases hid : id = sid
    · subst hid
      refine .inr ?_
      convert SessionView.Step.here (v := s.view id) request htold hqueue using 1
      ext1 <;> simp [ServerHandlers.view, SessionView.push, update_queues, update_told, note_self]
    · refine .inl ?_
      ext1 <;> simp [ServerHandlers.view, update_queues, update_told, note_other, Dict.get?_set_ne, hid]
  | @away p h sid request hput =>
    obtain ⟨htold, hne⟩ := ConnectionHandler.put_away hput
    by_cases hid : id = sid
    · subst hid
      refine .inr ?_
      convert SessionView.Step.away (v := s.view id) request htold hne using 1
      ext1 <;> simp [ServerHandlers.view, SessionView.push, enqueue_events, note_self]
    · refine .inl ?_
      ext1 <;> simp [ServerHandlers.view, enqueue_events, note_other, hid, Ne.symm hid]
  | @listen p h sid event rest hread =>
    by_cases hid : id = sid
    · subst hid
      have hread' : (s.view id).events p h = event :: sessionEvents id rest := by
        simp [ServerHandlers.view, hread, sessionEvents_cons]
      refine .inr ?_
      convert SessionView.Step.listen (v := s.view id) hread' using 1
      cases event with
      | newSession index =>
        ext1 <;> simp [ServerHandlers.view, SessionView.hear, ConnectionHandler.listen, update_queues, update_told,
          dequeue_events]
      | endSession index =>
        ext1 <;> simp [ServerHandlers.view, SessionView.hear, ConnectionHandler.listen, update_queues, update_told,
          dequeue_events]
      | push request =>
        have hpush := (s.handlers h).listen_push id p request
        ext1 <;> simp [ServerHandlers.view, SessionView.hear, update_queues, update_told, dequeue_events, hpush]
    · refine .inl ?_
      have hother := (s.handlers h).listen_other sid p event hid
      ext1
      case events =>
        simp only [ServerHandlers.view, dequeue_events]
        funext a b
        by_cases hab : a = p ∧ b = h
        · obtain ⟨rfl, rfl⟩ := hab
          simp [dequeue, hread, sessionEvents_cons, Ne.symm hid]
        · simp [dequeue, hab]
      all_goals simp [ServerHandlers.view, update_queues, update_told, hother]

end ServerHandlers

end Petals

end Blitzwing
