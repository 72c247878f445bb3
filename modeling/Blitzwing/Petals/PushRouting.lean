/-
What pushed requests get to, whichever handlers they come in at.

The invariant of one session (`SessionView.Routed`) says what each other handler
has heard of it against what is in its event queue, and counts a session's
requests: at every handler, those pushed are those it ignored, before it had
heard of the session, then those that arrived, then those that wait in the
session's queue, then those on their way there. From it: what the maps say when
no event is in flight, that a request arrives once and in order, and that
nothing raises (`push_routing`).
-/
import Mathlib.Data.List.Infix
import Blitzwing.Petals.Handlers

namespace Blitzwing

namespace Petals

variable {n : Nat} {Tensor : Type}

def HandlerEvent.request? : HandlerEvent n Tensor → Option (ExpertRequest Tensor)
  | .push request => .some request
  | _ => .none

/-- The pushed requests among events. -/
def inFlight (events : List (HandlerEvent n Tensor)) : List (ExpertRequest Tensor) :=
  events.filterMap HandlerEvent.request?

def queuedFrom (p : Fin n) (queue : List (Pushed n Tensor)) : List (ExpertRequest Tensor) :=
  (queue.filter (·.1 = p)).map Prod.snd

def arrivedFrom (p : Fin n) (arrived : List (Option (Fin n) × ExpertRequest Tensor)) : List (ExpertRequest Tensor) :=
  (arrived.filter (·.1 = .some p)).map Prod.snd

@[simp] theorem inFlight_append (events events' : List (HandlerEvent n Tensor)) :
    inFlight (events ++ events') = inFlight events ++ inFlight events' := by
  simp [inFlight]

@[simp] theorem inFlight_push (request : ExpertRequest Tensor) (events : List (HandlerEvent n Tensor)) :
    inFlight (.push request :: events) = request :: inFlight events := rfl

@[simp] theorem inFlight_nil : inFlight ([] : List (HandlerEvent n Tensor)) = [] := rfl

@[simp] theorem queuedFrom_append (p : Fin n) (queue queue' : List (Pushed n Tensor)) :
    queuedFrom p (queue ++ queue') = queuedFrom p queue ++ queuedFrom p queue' := by
  simp [queuedFrom]

@[simp] theorem queuedFrom_nil (p : Fin n) : queuedFrom p ([] : List (Pushed n Tensor)) = [] := rfl

theorem queuedFrom_cons (p q : Fin n) (request : ExpertRequest Tensor) (queue : List (Pushed n Tensor)) :
    queuedFrom p ((q, request) :: queue) = if q = p then request :: queuedFrom p queue else queuedFrom p queue := by
  by_cases h : q = p <;> simp [queuedFrom, h]

theorem arrivedFrom_concat (p : Fin n) (arrived : List (Option (Fin n) × ExpertRequest Tensor)) (source : Option (Fin n))
    (request : ExpertRequest Tensor) :
    arrivedFrom p (arrived ++ [(source, request)]) =
      if source = .some p then arrivedFrom p arrived ++ [request] else arrivedFrom p arrived := by
  by_cases h : source = .some p <;> simp [arrivedFrom, h]

/-- What another handler knows of a session at `h`, and what it has yet to read. -/
inductive Told (h : Fin n) : Bool → Option (Fin n) → List (HandlerEvent n Tensor) → Prop
  | announced : Told h true .none [.newSession h]
  | known : Told h true (.some h) []
  | missed : Told h false .none [.newSession h, .endSession h]
  | ending : Told h false (.some h) [.endSession h]
  | ended : Told h false .none []

namespace SessionView

variable {v v' : SessionView n Tensor} {h : Fin n} {isOpen : Bool}

/-! ## The invariant of one session -/

/-- What is where, of a session at `h`. -/
structure Around (v : SessionView n Tensor) (h : Fin n) (isOpen : Bool) : Prop where
  told : ∀ p, p ≠ h → Told h isOpen (v.told p) (v.events h p)
  own : v.told h = if isOpen then .some h else .none
  queues : ∀ p, p ≠ h → v.queues p = .none
  pushes : ∀ p, p ≠ h → ∀ e ∈ v.events p h, ∃ request, e = .push request
  others : ∀ p q, p ≠ h → q ≠ h → v.events p q = []
  self : v.events h h = []

structure Unknown (v : SessionView n Tensor) : Prop where
  queues : ∀ p, v.queues p = .none
  told : ∀ p, v.told p = .none
  events : ∀ p q, v.events p q = []
  ignored : ∀ p, v.pushed p = v.ignored p
  arrived : v.arrived = []

/-- Running at `h`, where `queue` holds what was pushed. -/
structure Open (v : SessionView n Tensor) (h : Fin n) : Prop where
  around : v.Around h true
  queue : ∃ queue, v.queues h = .some queue ∧ ∀ p, v.pushed p =
    v.ignored p ++ (arrivedFrom p v.arrived ++ queuedFrom p queue ++ inFlight (v.events p h))
  unheard : ∀ p, v.told p = .none → v.pushed p = v.ignored p

structure Closed (v : SessionView n Tensor) (h : Fin n) : Prop where
  around : v.Around h false
  queue : v.queues h = .none
  arrived : ∀ p, arrivedFrom p v.arrived <:+: v.pushed p

structure Routed (v : SessionView n Tensor) : Prop where
  unknown : v.phase = .fresh → v.Unknown
  running : ∀ h, v.phase = .running h → v.Open h
  closed : ∀ h, v.phase = .closed h → v.Closed h

/-! ## What a step keeps of it -/

/-- No handler has heard of another owner. -/
theorem Around.eq_of_told (hv : v.Around h isOpen) {p index : Fin n} (htold : v.told p = .some index) : index = h := by
  by_cases hp : p = h
  · have hown := hv.own
    rw [← hp, htold] at hown
    cases isOpen <;> simp_all
  · have ht := hv.told p hp
    rw [htold] at ht
    generalize v.events h p = events at ht
    cases ht <;> rfl

/-- Only the session's own handler keeps a queue for it. -/
theorem Around.eq_of_queue (hv : v.Around h isOpen) {p : Fin n} {queue : List (Pushed n Tensor)}
    (hqueue : v.queues p = .some queue) : p = h := by
  by_contra hp
  simp [hv.queues p hp] at hqueue

/-- It is about the queues, the maps and the events only. -/
theorem Around.congr (hv : v.Around h isOpen) (hqueues : v'.queues = v.queues) (htold : v'.told = v.told)
    (hevents : v'.events = v.events) : v'.Around h isOpen where
  told := by simpa only [htold, hevents] using hv.told
  own := by simpa only [htold] using hv.own
  queues := by simpa only [hqueues] using hv.queues
  pushes := by simpa only [hevents] using hv.pushes
  others := by simpa only [hevents] using hv.others
  self := by simpa only [hevents] using hv.self

/-- With nothing to read, every handler knows of it as its own does. -/
theorem Around.told_of_read (hv : v.Around h isOpen) (hread : ∀ p q, v.events p q = []) (p : Fin n) :
    v.told p = if isOpen then .some h else .none := by
  by_cases hp : p = h
  · rw [hp]
    exact hv.own
  · have ht := hv.told p hp
    rw [hread] at ht
    generalize v.told p = t at ht
    cases ht <;> rfl

theorem Around.away (hv : v.Around h isOpen) {p : Fin n} (hp : h ≠ p) (request : ExpertRequest Tensor) :
    ({ v.push p request with events := enqueue v.events (oneQueue p h) (.push request) } : SessionView n Tensor).Around
      h isOpen where
  told q hq := by simpa [push, enqueue, oneQueue, hp] using hv.told q hq
  own := hv.own
  queues := hv.queues
  pushes q hq e he := by
    simp only [enqueue, oneQueue] at he
    split at he
    · rcases List.mem_append.1 he with he | he
      · exact hv.pushes q hq e he
      · exact ⟨request, List.mem_singleton.1 he⟩
    · exact hv.pushes q hq e he
  others q r hq hr := by simpa [enqueue, oneQueue, hr] using hv.others q r hq hr
  self := by simpa [enqueue, oneQueue, hp] using hv.self

/-- What is read is the session's news, at another handler, or a request, at its
own. -/
theorem Around.reads (hv : v.Around h isOpen) {p q : Fin n} {event : HandlerEvent n Tensor}
    {rest : List (HandlerEvent n Tensor)} (hread : v.events p q = event :: rest) :
    p = h ∧ q ≠ h ∨ p ≠ h ∧ q = h ∧ ∃ request, event = .push request := by
  by_cases hp : p = h
  · refine .inl ⟨hp, ?_⟩
    rintro rfl
    simp [hp, hv.self] at hread
  · by_cases hq : q = h
    · subst hq
      exact .inr ⟨hp, rfl, hv.pushes p hp event (by simp [hread])⟩
    · simp [hv.others p q hp hq] at hread

/-- Another handler reads of the session. -/
theorem Around.hear_news (hv : v.Around h isOpen) {q : Fin n} (hq : q ≠ h) {event : HandlerEvent n Tensor}
    {rest : List (HandlerEvent n Tensor)} (hread : v.events h q = event :: rest) :
    (v.hear h q rest event).Around h isOpen ∧ (event = .newSession h ∨ event = .endSession h ∧ isOpen = false) := by
  have ht := hv.told q hq
  rw [hread] at ht
  have hnews : event = .newSession h ∨ event = .endSession h ∧ isOpen = false := by
    generalize v.told q = t at ht
    cases ht <;> simp
  refine ⟨?_, hnews⟩
  have hdequeue : ∀ a b, ¬(a = h ∧ b = q) → dequeue v.events h q rest a b = v.events a b := fun a b hab => by
    simp [dequeue, hab]
  have hrest : ∀ t, Told h isOpen t rest → ∀ p, p ≠ h →
      Told h isOpen (Function.update v.told q t p) (dequeue v.events h q rest h p) := by
    intro t hrest p hp
    by_cases hpq : p = q
    · subst hpq
      simpa [dequeue] using hrest
    · simpa [dequeue, hpq] using hv.told p hp
  have hpushes : ∀ p, p ≠ h → ∀ e ∈ dequeue v.events h q rest p h, ∃ request, e = .push request := by
    intro p hp e he
    rw [hdequeue p h (by simp [hp])] at he
    exact hv.pushes p hp e he
  have hothers : ∀ p r, p ≠ h → r ≠ h → dequeue v.events h q rest p r = [] := by
    intro p r hp hr
    rw [hdequeue p r (by simp [hp])]
    exact hv.others p r hp hr
  have hself : dequeue v.events h q rest h h = [] := by
    rw [hdequeue h h (by simp [Ne.symm hq])]
    exact hv.self
  have hown : ∀ t, Function.update v.told q t h = if isOpen then .some h else .none := by
    intro t
    rw [Function.update_of_ne (Ne.symm hq)]
    exact hv.own
  rcases hnews with rfl | ⟨rfl, rfl⟩
  · have : Told h isOpen (.some h) rest := by
      generalize v.told q = t at ht
      cases ht
      · exact .known
      · exact .ending
    exact ⟨hrest _ this, hown _, hv.queues, hpushes, hothers, hself⟩
  · have : Told h false .none rest := by
      generalize v.told q = t at ht
      cases ht
      exact .ended
    exact ⟨hrest _ this, hown _, hv.queues, hpushes, hothers, hself⟩

/-- The session's handler reads a request. -/
theorem Around.hear_push (hv : v.Around h isOpen) {p : Fin n} (hp : p ≠ h) {request : ExpertRequest Tensor}
    {rest : List (HandlerEvent n Tensor)} (hread : v.events p h = .push request :: rest) :
    (v.hear p h rest (.push request)).Around h isOpen where
  told q hq := by simpa [hear, dequeue, Ne.symm hp] using hv.told q hq
  own := hv.own
  queues q hq := by simpa [hear, hq] using hv.queues q hq
  pushes q hq e he := by
    refine hv.pushes q hq e ?_
    by_cases hqp : q = p
    · subst hqp
      simp only [hear, dequeue, and_self, if_true] at he
      simp [hread, he]
    · simpa [hear, dequeue, hqp] using he
  others q r hq hr := by simpa [hear, dequeue, hr] using hv.others q r hq hr
  self := by simpa [hear, dequeue, Ne.symm hp] using hv.self

/-! ## Every step keeps it -/

theorem Unknown.enter (hv : v.Unknown) (h : Fin n) (request : ExpertRequest Tensor) :
    ({ v with
        phase := .running h
        queues := Function.update v.queues h (.some [])
        told := Function.update v.told h (.some h)
        events := enqueue v.events (others h) (.newSession h)
        arrived := [(.none, request)] } : SessionView n Tensor).Open h where
  around :=
    { told := fun p hp => by simpa [enqueue, others, hp, hv.events, hv.told] using Told.announced
      own := by simp
      queues := fun p hp => by simp [hp, hv.queues]
      pushes := fun p hp => by simp [enqueue, others, hp, hv.events]
      others := fun p q hp _ => by simp [enqueue, others, hp, hv.events]
      self := by simp [enqueue, others, hv.events] }
  queue := by
    refine ⟨[], by simp, fun p => ?_⟩
    have hnone : inFlight (enqueue v.events (others h) (.newSession h) p h) = [] := by
      simp [enqueue, others, hv.events]
    simp [hnone, arrivedFrom, hv.ignored p]
  unheard p _ := hv.ignored p

theorem Open.request (hv : v.Open h) (request : ExpertRequest Tensor) :
    ({ v with arrived := v.arrived ++ [(.none, request)] } : SessionView n Tensor).Open h where
  around := hv.around.congr rfl rfl rfl
  queue := by simpa [arrivedFrom_concat] using hv.queue
  unheard := hv.unheard

theorem Open.get (hv : v.Open h) {p : Fin n} {request : ExpertRequest Tensor} {queue : List (Pushed n Tensor)}
    (hqueue : v.queues h = .some ((p, request) :: queue)) :
    ({ v with
        queues := Function.update v.queues h (.some queue)
        arrived := v.arrived ++ [(.some p, request)] } : SessionView n Tensor).Open h where
  around :=
    { told := hv.around.told
      own := hv.around.own
      queues := fun q hq => by simpa [hq] using hv.around.queues q hq
      pushes := hv.around.pushes
      others := hv.around.others
      self := hv.around.self }
  queue := by
    refine ⟨queue, by simp, fun q => ?_⟩
    obtain ⟨queue', hqueue', haccount⟩ := hv.queue
    obtain rfl : (p, request) :: queue = queue' := Option.some.inj (hqueue.symm.trans hqueue')
    have := haccount q
    rw [queuedFrom_cons] at this
    by_cases hp : p = q
    · subst hp
      simpa [arrivedFrom_concat] using this
    · simpa [arrivedFrom_concat, hp] using this
  unheard := hv.unheard

theorem Open.exit (hv : v.Open h) :
    ({ v with
        phase := .closed h
        queues := Function.update v.queues h .none
        told := Function.update v.told h .none
        events := enqueue v.events (others h) (.endSession h) } : SessionView n Tensor).Closed h where
  around :=
    { told := fun p hp => by
        have ht := hv.around.told p hp
        simp only [enqueue, others, hp, decide_true, ne_eq, not_false_iff, Bool.and_self, if_true,
          Function.update_of_ne hp]
        generalize v.told p = t at ht
        generalize v.events h p = events at ht
        cases ht
        · exact .missed
        · exact .ending
      own := by simp
      queues := fun p hp => by simpa [hp] using hv.around.queues p hp
      pushes := fun p hp => by simpa [enqueue, others, hp] using hv.around.pushes p hp
      others := fun p q hp hq => by simpa [enqueue, others, hp] using hv.around.others p q hp hq
      self := by simpa [enqueue, others] using hv.around.self }
  queue := by simp
  arrived p := by
    obtain ⟨queue, -, haccount⟩ := hv.queue
    refine ⟨v.ignored p, queuedFrom p queue ++ inFlight (v.events p h), ?_⟩
    simp [haccount p]

/-- A request comes in where nothing is known of the session. -/
theorem Routed.ignore (hv : v.Routed) {p : Fin n} {request : ExpertRequest Tensor} (htold : v.told p = .none) :
    ({ v.push p request with ignored := Function.update v.ignored p (v.ignored p ++ [request]) } :
      SessionView n Tensor).Routed where
  unknown hfresh := by
    have hu := hv.unknown hfresh
    refine ⟨hu.queues, hu.told, hu.events, fun q => ?_, hu.arrived⟩
    by_cases hq : q = p
    · subst hq
      simp [push, hu.ignored q]
    · simpa [push, hq] using hu.ignored q
  running h hin := by
    have ho := hv.running h hin
    obtain ⟨queue, hqueue, haccount⟩ := ho.queue
    refine ⟨ho.around.congr rfl rfl rfl,
      ⟨queue, hqueue, fun q => ?_⟩, fun q hq => ?_⟩
    · by_cases hq : q = p
      · subst hq
        have hp := haccount q
        rw [ho.unheard q htold, List.self_eq_append_right] at hp
        simp [push, ho.unheard q htold, hp]
      · simpa [push, hq] using haccount q
    · by_cases hqp : q = p
      · subst hqp
        simp [push, ho.unheard q htold]
      · simpa [push, hqp] using ho.unheard q hq
  closed h hend := by
    have ho := hv.closed h hend
    refine ⟨ho.around.congr rfl rfl rfl,
      ho.queue, fun q => ?_⟩
    by_cases hq : q = p
    · subst hq
      simpa [push] using (ho.arrived q).trans (List.prefix_append _ _).isInfix
    · simpa [push, hq] using ho.arrived q

/-- It comes in at the session's own handler. -/
theorem Routed.here (hv : v.Routed) {p : Fin n} {request : ExpertRequest Tensor} {queue : List (Pushed n Tensor)}
    (htold : v.told p = .some p) (hqueue : v.queues p = .some queue) :
    ({ v.push p request with queues := Function.update v.queues p (.some (queue ++ [(p, request)])) } :
      SessionView n Tensor).Routed where
  unknown hfresh := by simp [(hv.unknown hfresh).queues p] at hqueue
  running h hin := by
    have ho := hv.running h hin
    obtain rfl := ho.around.eq_of_told htold
    obtain ⟨queue', hqueue', haccount⟩ := ho.queue
    obtain rfl : queue = queue' := Option.some.inj (hqueue.symm.trans hqueue')
    refine ⟨⟨ho.around.told, ho.around.own, fun q hq => ?_, ho.around.pushes, ho.around.others, ho.around.self⟩,
      ⟨queue ++ [(p, request)], by simp, fun q => ?_⟩, fun q hq => ?_⟩
    · simpa [hq] using ho.around.queues q hq
    · by_cases hq : q = p
      · subst hq
        simp [push, haccount q, queuedFrom_cons, ho.around.self]
      · simpa [push, hq, queuedFrom_cons, Ne.symm hq] using haccount q
    · have hqp : q ≠ p := by
        rintro rfl
        simp [push, htold] at hq
      simpa [push, hqp] using ho.unheard q hq
  closed h hend := by
    have ho := hv.closed h hend
    obtain rfl := ho.around.eq_of_queue hqueue
    simp [ho.queue] at hqueue

/-- It comes in elsewhere, and is sent on. -/
theorem Routed.away (hv : v.Routed) {p h : Fin n} {request : ExpertRequest Tensor} (htold : v.told p = .some h)
    (hne : h ≠ p) :
    ({ v.push p request with events := enqueue v.events (oneQueue p h) (.push request) } : SessionView n Tensor).Routed where
  unknown hfresh := by simp [(hv.unknown hfresh).told p] at htold
  running g hin := by
    have ho := hv.running g hin
    obtain rfl := ho.around.eq_of_told htold
    obtain ⟨queue, hqueue, haccount⟩ := ho.queue
    refine ⟨ho.around.away hne request, ⟨queue, hqueue, fun q => ?_⟩, fun q hq => ?_⟩
    · by_cases hq : q = p
      · subst hq
        simp [push, enqueue, oneQueue, haccount q]
      · simpa [push, enqueue, oneQueue, hq] using haccount q
    · have hqp : q ≠ p := by
        rintro rfl
        simp [push, htold] at hq
      simpa [push, hqp] using ho.unheard q hq
  closed g hend := by
    have ho := hv.closed g hend
    obtain rfl := ho.around.eq_of_told htold
    refine ⟨ho.around.away hne request, ho.queue, fun q => ?_⟩
    by_cases hq : q = p
    · subst hq
      simpa [push] using (ho.arrived q).trans (List.prefix_append _ _).isInfix
    · simpa [push, hq] using ho.arrived q

theorem Open.hear (hv : v.Open h) {p q : Fin n} {event : HandlerEvent n Tensor} {rest : List (HandlerEvent n Tensor)}
    (hread : v.events p q = event :: rest) : (v.hear p q rest event).Open h := by
  obtain ⟨queue, hqueue, haccount⟩ := hv.queue
  rcases hv.around.reads hread with ⟨rfl, hq⟩ | ⟨hp, rfl, request, rfl⟩
  · obtain ⟨haround, rfl | ⟨-, hclosed⟩⟩ := hv.around.hear_news hq hread
    · refine ⟨haround, ⟨queue, hqueue, fun r => ?_⟩, fun r hr => hv.unheard r ?_⟩
      · simpa [SessionView.hear, dequeue, Ne.symm hq] using haccount r
      · by_cases hrq : r = q
        · subst hrq
          simp [SessionView.hear] at hr
        · simpa [SessionView.hear, hrq] using hr
    · cases hclosed
  · refine ⟨hv.around.hear_push hp hread, ⟨queue ++ [(p, request)], by simp [SessionView.hear, hqueue], fun r => ?_⟩,
      hv.unheard⟩
    by_cases hr : r = p
    · subst hr
      simpa [SessionView.hear, dequeue, queuedFrom_cons, hread] using haccount r
    · simpa [SessionView.hear, dequeue, queuedFrom_cons, hr, Ne.symm hr] using haccount r

theorem Closed.hear (hv : v.Closed h) {p q : Fin n} {event : HandlerEvent n Tensor} {rest : List (HandlerEvent n Tensor)}
    (hread : v.events p q = event :: rest) : (v.hear p q rest event).Closed h := by
  rcases hv.around.reads hread with ⟨rfl, hq⟩ | ⟨hp, rfl, request, rfl⟩
  · obtain ⟨haround, rfl | ⟨rfl, -⟩⟩ := hv.around.hear_news hq hread
    · exact ⟨haround, hv.queue, hv.arrived⟩
    · exact ⟨haround, hv.queue, hv.arrived⟩
  · exact ⟨hv.around.hear_push hp hread, by simp [SessionView.hear, hv.queue], hv.arrived⟩

/-- The phase is the session's own handler's to change. -/
theorem hear_phase (p q : Fin n) (rest : List (HandlerEvent n Tensor)) (event : HandlerEvent n Tensor) :
    (v.hear p q rest event).phase = v.phase := by
  cases event <;> rfl

theorem Routed.step (hv : v.Routed) (hs : v.Step v') : v'.Routed := by
  cases hs with
  | enter request hnew =>
    refine ⟨by simp, fun g hg => ?_, by simp⟩
    obtain rfl := SessionPhase.running.inj hg
    exact (hv.unknown hnew).enter _ request
  | request request hin =>
    refine ⟨by simp [hin], fun g hg => (hv.running g hg).request request, by simp [hin]⟩
  | get hin hqueue =>
    refine ⟨by simp [hin], fun g hg => ?_, by simp [hin]⟩
    obtain rfl := SessionPhase.running.inj (hin.symm.trans hg)
    exact (hv.running _ hin).get hqueue
  | exit hin =>
    refine ⟨by simp, by simp, fun g hg => ?_⟩
    obtain rfl := SessionPhase.closed.inj hg
    exact (hv.running _ hin).exit
  | ignore request htold => exact hv.ignore htold
  | here request htold hqueue => exact hv.here htold hqueue
  | away request htold hne => exact hv.away htold hne
  | listen hread =>
    refine ⟨fun hfresh => ?_, fun g hg => ?_, fun g hg => ?_⟩
    · rw [hear_phase] at hfresh
      simp [(hv.unknown hfresh).events] at hread
    · rw [hear_phase] at hg
      exact (hv.running g hg).hear hread
    · rw [hear_phase] at hg
      exact (hv.closed g hg).hear hread

end SessionView

namespace ServerHandlers

variable {s s' : ServerHandlers n Tensor}

theorem Reachable.routed (hs : s.Reachable) (id : String) : (s.view id).Routed := by
  induction hs with
  | refl =>
    refine ⟨fun _ => ⟨fun _ => rfl, fun _ => rfl, fun _ _ => rfl, fun _ => rfl, rfl⟩, fun h hin => ?_, fun h hend => ?_⟩
    · cases hin
    · cases hend
  | tail _ hstep ih =>
    rcases hstep.view id with hsame | hstep
    · exact hsame ▸ ih
    · exact ih.step hstep

end ServerHandlers

/-! ## What it says -/

namespace SessionView

variable {v : SessionView n Tensor}

theorem Routed.arrived (hv : v.Routed) (p : Fin n) : arrivedFrom p v.arrived <:+: v.pushed p := by
  cases hphase : v.phase with
  | fresh => simp [(hv.unknown hphase).arrived, arrivedFrom]
  | running h =>
    obtain ⟨queue, -, haccount⟩ := (hv.running h hphase).queue
    exact ⟨v.ignored p, queuedFrom p queue ++ inFlight (v.events p h), by simp [haccount p]⟩
  | closed h => exact (hv.closed h hphase).arrived p

/-- With nothing to read, all handlers know of it or none does. -/
theorem Routed.told_iff (hv : v.Routed) (hread : ∀ p q, v.events p q = []) (p h : Fin n) :
    v.told p = .some h ↔ v.phase = .running h := by
  cases hphase : v.phase with
  | fresh => simp [(hv.unknown hphase).told p]
  | running g => simp [(hv.running g hphase).around.told_of_read hread p]
  | closed g => simp [(hv.closed g hphase).around.told_of_read hread p]

/-- A handler that has a session in its map has its queue, if it is its own. -/
theorem Routed.queue_of_told (hv : v.Routed) {p : Fin n} (htold : v.told p = .some p) : (v.queues p).isSome := by
  cases hphase : v.phase with
  | fresh => simp [(hv.unknown hphase).told p] at htold
  | running h =>
    have ho := hv.running h hphase
    obtain rfl := ho.around.eq_of_told htold
    obtain ⟨queue, hqueue, -⟩ := ho.queue
    simp [hqueue]
  | closed h =>
    have ho := hv.closed h hphase
    obtain rfl := ho.around.eq_of_told htold
    simp [ho.around.own] at htold

end SessionView

namespace ServerHandlers

variable {s : ServerHandlers n Tensor}

/-- The count of what was pushed, while the session runs. -/
theorem Reachable.account (hs : s.Reachable) {id : String} {h : Fin n} (hin : s.phases id = .running h) :
    ∃ queue, (s.handlers h).getFromSessionQueue h id = .some queue ∧ ∀ p, s.pushed p id = s.ignored p id ++
      (arrivedFrom p (s.arrived id) ++ queuedFrom p queue ++ inFlight (sessionEvents id (s.eventQueues p h))) := by
  have ho := (hs.routed id).running h hin
  obtain ⟨queue, hqueue, haccount⟩ := ho.queue
  have hown : (s.handlers h).sessionHandlers.get? id = .some h := ho.around.own
  refine ⟨queue, ?_, haccount⟩
  unfold ConnectionHandler.getFromSessionQueue
  rw [if_pos hown]
  exact hqueue

theorem Reachable.enters (hs : s.Reachable) {id : String} (hnew : s.phases id = .fresh) (h : Fin n) :
    ((s.handlers h).enterSession h id).isSome := by
  have hqueue : (s.handlers h).sessionQueues.get? id = .none := ((hs.routed id).unknown hnew).queues h
  simp [ConnectionHandler.enterSession, Dict.contains, hqueue]

theorem Reachable.exits (hs : s.Reachable) {id : String} {h : Fin n} (hin : s.phases id = .running h) :
    ((s.handlers h).exitSession id).isSome := by
  have ho := (hs.routed id).running h hin
  obtain ⟨queue, hqueue, -⟩ := ho.queue
  have hqueue : (s.handlers h).sessionQueues.get? id = .some queue := hqueue
  have hown : (s.handlers h).sessionHandlers.get? id = .some h := ho.around.own
  simp [ConnectionHandler.exitSession, Dict.contains, hqueue, hown]

theorem Reachable.puts (hs : s.Reachable) (id : String) (p : Fin n) (request : ExpertRequest Tensor) :
    ((s.handlers p).putIntoSessionQueue p id request).isSome := by
  unfold ConnectionHandler.putIntoSessionQueue
  split
  · rfl
  · next index htold =>
    split
    · next hown =>
      subst hown
      have hqueue : ((s.handlers index).sessionQueues.get? id).isSome := (hs.routed id).queue_of_told htold
      simpa using hqueue
    · rfl

/-- While a session runs, what was pushed for it at a handler is what that one
ignored before it knew of the session, then, in order and each once, what
arrived, what waits in its queue and what is on its way; also when it has ended,
what arrived was pushed in that order with nothing left out between. With no
event of it to read, each handler's map has it with its handler if it runs, and
else not at all. And nothing raises. -/
theorem push_routing (hs : s.Reachable) (id : String) :
    (∀ h, s.phases id = .running h →
      ∃ queue, (s.handlers h).getFromSessionQueue h id = .some queue ∧ ∀ p, s.pushed p id = s.ignored p id ++
        (arrivedFrom p (s.arrived id) ++ queuedFrom p queue ++ inFlight (sessionEvents id (s.eventQueues p h)))) ∧
    (∀ p, arrivedFrom p (s.arrived id) <:+: s.pushed p id) ∧
    ((∀ p q, sessionEvents id (s.eventQueues p q) = []) →
      ∀ p h, (s.handlers p).sessionHandlers.get? id = .some h ↔ s.phases id = .running h) ∧
    (s.phases id = .fresh → ∀ h, ((s.handlers h).enterSession h id).isSome) ∧
    (∀ h, s.phases id = .running h → ((s.handlers h).exitSession id).isSome) ∧
    ∀ p request, ((s.handlers p).putIntoSessionQueue p id request).isSome :=
  ⟨fun _ hin => hs.account hin, (hs.routed id).arrived, (hs.routed id).told_iff, hs.enters, fun _ hin => hs.exits hin,
    hs.puts id⟩

/-! A session at the first of two handlers. The second hears of it, and a step is
pushed there that the client sends as well. -/

def firstRequest : ExpertRequest Nat := ⟨[1], .some "x"⟩

def secondRequest : ExpertRequest Nat := ⟨[2], .some "y"⟩

theorem pushed_across : ∃ s : ServerHandlers 2 Nat, s.Reachable ∧ s.phases "a" = .running 0 ∧
    s.arrived "a" = [(.none, firstRequest), (.some 1, secondRequest), (.none, secondRequest)] ∧
    s.pushed 1 "a" = [secondRequest] ∧ s.ignored 1 "a" = [] ∧ (s.handlers 0).getFromSessionQueue 0 "a" = .some [] ∧
    ∀ p, sessionEvents "a" (s.eventQueues p 0) = [] := by
  have entered := Relation.ReflTransGen.single (Step.enter (h := 0) firstRequest
    (show (initial 2 Nat).phases "a" = .fresh from rfl) rfl)
  have heard := entered.tail (Step.listen (p := 0) (h := 1) rfl)
  have pushed := heard.tail (Step.away (p := 1) (h := 0)
    (show ConnectionHandler.putIntoSessionQueue _ 1 "a" secondRequest = .some (.away 0) from rfl))
  have forwarded := pushed.tail (Step.listen (p := 1) (h := 0) rfl)
  have taken := forwarded.tail (Step.get (h := 0) (p := 1)
    (show ServerHandlers.phases _ "a" = .running 0 from rfl) rfl)
  have sent := taken.tail (Step.request (h := 0) secondRequest
    (show ServerHandlers.phases _ "a" = .running 0 from rfl))
  exact ⟨_, sent, rfl, rfl, rfl, rfl, rfl, Fin.forall_fin_two.2 ⟨rfl, rfl⟩⟩

theorem push_routing_across : ∃ s : ServerHandlers 2 Nat, s.pushed 1 "a" = [secondRequest] ∧
    arrivedFrom 1 (s.arrived "a") <:+: s.pushed 1 "a" ∧ ((s.handlers 0).exitSession "a").isSome := by
  obtain ⟨s, hs, hin, -, hpushed, -⟩ := pushed_across
  obtain ⟨-, harrived, -, -, hexit, -⟩ := push_routing hs "a"
  exact ⟨s, hpushed, harrived 1, hexit 0 hin⟩

end ServerHandlers

end Petals

end Blitzwing
