/-
The memory of the attention caches: allocations by several handler processes at
once, and the tensors the runtime has for them.

An allocation counts itself among the enqueued ones and gets in line for the
lock. Under the lock it checks that its size fits, or waits for memory that
others free; it gives the lock back, counts itself out, and only then adds its
size to the current one. Each of these is a step and the steps of all
allocations interleave, but for one thing: from giving the lock back to adding
its size, an allocation keeps its process from doing anything else. The threads
that take the lock and wait for memory are not so kept, and go on when their
allocation has timed out.

What the sizes say is exact, and the runtime's tensors are those of the
allocations that hold memory (`memory_accounts`).
-/
import Mathlib.Algebra.BigOperators.Group.List.Basic
import Mathlib.Algebra.Ring.Nat
import Mathlib.Data.List.Perm.Basic
import Mathlib.Logic.Relation
import Blitzwing.Lib.Dict

namespace Blitzwing

namespace Petals

variable {Device : Type}

structure TensorDescriptor (Device : Type) where
  device : Device
  numel : Nat
  itemSize : Nat

/-- `descr.numel() * get_size_in_bytes(descr.dtype)` -/
def TensorDescriptor.size (descr : TensorDescriptor Device) : Nat := descr.numel * descr.itemSize

/-- `get_allocation_size`: the most that one device gets. `none` is the
`max` of nothing. -/
def getAllocationSize [DecidableEq Device] (descriptors : List (TensorDescriptor Device)) : Option Nat :=
  let allocSizeByDevice := descriptors.foldl (fun (sizes : Dict Device Nat) descr =>
    sizes.set descr.device ((sizes.get? descr.device).getD 0 + descr.size)) .empty
  allocSizeByDevice.values.max?

/-- Handles, and the tensors to make for them; `none` is to delete them. -/
abbrev CacheMessage (Device : Type) := List Nat × Option (List (TensorDescriptor Device))

/-- What the processes share; their counters stay below 2^63, where `c_int64`
would wrap around. -/
structure SharedMemory (Device : Type) where
  currentSizeBytes : Nat
  enqueuedSizeBytes : Nat
  handleCounter : Nat
  lockAcquireMemory : Option Nat
  memoryFreedEvent : Bool
  pipe : List (CacheMessage Device)

/-- `range(start, start + n)`, as handles are given out. -/
abbrev handlesFrom (start n : Nat) : List Nat := List.range' start n

namespace SharedMemory

variable (m : SharedMemory Device)

/-- `_schedule_alloc`, under the metadata lock. -/
def commit (allocSize : Nat) (descriptors : List (TensorDescriptor Device)) : SharedMemory Device :=
  { m with
    currentSizeBytes := m.currentSizeBytes + allocSize
    handleCounter := m.handleCounter + descriptors.length
    pipe := m.pipe ++ [(handlesFrom m.handleCounter descriptors.length, .some descriptors)] }

/-- `_free`, under the metadata lock. -/
def free (allocSize : Nat) (handles : List Nat) : SharedMemory Device :=
  { m with
    currentSizeBytes := m.currentSizeBytes - allocSize
    pipe := m.pipe ++ [(handles, .none)] }

def enqueue (allocSize : Nat) : SharedMemory Device :=
  { m with enqueuedSizeBytes := m.enqueuedSizeBytes + allocSize }

def dequeue (allocSize : Nat) : SharedMemory Device :=
  { m with enqueuedSizeBytes := m.enqueuedSizeBytes - allocSize }

end SharedMemory

/-- What becomes of a thread's allocation: it waits for the thread, or has timed
out and is still counted among the enqueued, or is gone. -/
inductive Asker
  | waits
  | failing
  | gone
deriving DecidableEq

/-- Where the loop of `_wait_until_available` is. -/
inductive LoopPoint
  | looking
  | waiting
  | woken
deriving DecidableEq

/-- Where an allocation is. `inLoop` is the thread that waits for memory, and
`back` the allocation when that thread is done, with room found or not;
`leaving` is a thread still in line for the lock of an allocation that has
timed out, and `leaked` the lock taken by such a one. -/
inductive AllocPhase
  | arrived
  | enqueued
  | read (current : Nat)
  | inLine
  | checking
  | inLoop (point : LoopPoint) (asker : Asker)
  | back (found : Bool)
  | passed
  | released
  | granted
  | held (first : Nat)
  | freed
  | failing
  | leaving
  | leaked
  | finished
deriving DecidableEq

/-- The thread in the loop ends. -/
def Asker.resumed (found : Bool) : Asker → AllocPhase
  | waits => .back found
  | failing => .failing
  | gone => .finished

/-- An `allocate_cache` of a handler; `immediate` is a timeout of zero. -/
structure Allocation (Device : Type) where
  handler : Nat
  descriptors : List (TensorDescriptor Device)
  immediate : Bool
  allocSize : Nat
  phase : AllocPhase

section moves

variable (maxSizeBytes : Nat) (cutOffs : Bool) (i : Nat) (t : Allocation Device) (m : SharedMemory Device)

/-- One step of the allocation `t`, the `i`-th: where it is then, and what it
leaves in the shared memory. -/
inductive AllocStep : AllocPhase → SharedMemory Device → Prop
  | enqueue (h : t.phase = .arrived) : AllocStep (if t.immediate then .enqueued else .inLine) (m.enqueue t.allocSize)
  | read (h : t.phase = .enqueued) : AllocStep (.read m.currentSizeBytes) m
  | refuse {current : Nat} (h : t.phase = .read current) (hfull : maxSizeBytes < current + m.enqueuedSizeBytes) :
      AllocStep .failing m
  | queue {current : Nat} (h : t.phase = .read current) (hfits : current + m.enqueuedSizeBytes ≤ maxSizeBytes) :
      AllocStep .inLine m
  | acquire (h : t.phase = .inLine) (hfree : m.lockAcquireMemory = .none) :
      AllocStep .checking { m with lockAcquireMemory := .some i }
  | pass (h : t.phase = .checking) (hfits : m.currentSizeBytes + t.allocSize ≤ maxSizeBytes) : AllocStep .passed m
  | fail (h : t.phase = .checking) (hfull : maxSizeBytes < m.currentSizeBytes + t.allocSize)
      (hnow : t.immediate = true) : AllocStep .failing { m with lockAcquireMemory := .none }
  | wait (h : t.phase = .checking) (hfull : maxSizeBytes < m.currentSizeBytes + t.allocSize)
      (hlater : t.immediate = false) : AllocStep (.inLoop .looking .waits) m
  | tooLarge {asker : Asker} (h : t.phase = .inLoop .looking asker) (hnever : maxSizeBytes < t.allocSize) :
      AllocStep (asker.resumed false) m
  | find {asker : Asker} (h : t.phase = .inLoop .looking asker)
      (hfits : m.currentSizeBytes + t.allocSize ≤ maxSizeBytes) : AllocStep (asker.resumed true) m
  | sleep {asker : Asker} (h : t.phase = .inLoop .looking asker) (hever : t.allocSize ≤ maxSizeBytes)
      (hfull : maxSizeBytes < m.currentSizeBytes + t.allocSize) : AllocStep (.inLoop .waiting asker) m
  | wake {asker : Asker} (h : t.phase = .inLoop .waiting asker) (hset : m.memoryFreedEvent = true) :
      AllocStep (.inLoop .woken asker) m
  | clear {asker : Asker} (h : t.phase = .inLoop .woken asker) :
      AllocStep (.inLoop .looking asker) { m with memoryFreedEvent := false }
  | expire {asker : Asker} (h : t.phase = .inLoop .waiting asker) : AllocStep (asker.resumed false) m
  | resume (h : t.phase = .back true) : AllocStep .passed m
  /-- The thread's failure, or a time-out before the allocation went on. -/
  | abort {found : Bool} (h : t.phase = .back found) : AllocStep .failing { m with lockAcquireMemory := .none }
  /-- It times out in the loop, and leaves a thread there. -/
  | cutOff {point : LoopPoint} (hallowed : cutOffs = true) (h : t.phase = .inLoop point .waits) :
      AllocStep (.inLoop point .failing) { m with lockAcquireMemory := .none }
  | dropAlone {point : LoopPoint} (h : t.phase = .inLoop point .failing) :
      AllocStep (.inLoop point .gone) (m.dequeue t.allocSize)
  /-- It times out in line; the lock may still be taken for it, for good. -/
  | leave (h : t.phase = .inLine) (hlater : t.immediate = false) : AllocStep .leaving (m.dequeue t.allocSize)
  | leak (h : t.phase = .leaving) (hfree : m.lockAcquireMemory = .none) :
      AllocStep .leaked { m with lockAcquireMemory := .some i }
  /-- It times out after its thread took the lock and before it goes on. -/
  | strand (h : t.phase = .checking) (hlater : t.immediate = false) : AllocStep .leaked (m.dequeue t.allocSize)
  | release (h : t.phase = .passed) : AllocStep .released { m with lockAcquireMemory := .none }
  | dequeue (h : t.phase = .released) : AllocStep .granted (m.dequeue t.allocSize)
  | drop (h : t.phase = .failing) : AllocStep .finished (m.dequeue t.allocSize)
  | commit (h : t.phase = .granted) : AllocStep (.held m.handleCounter) (m.commit t.allocSize t.descriptors)
  | free {first : Nat} (h : t.phase = .held first) :
      AllocStep .freed (m.free t.allocSize (handlesFrom first t.descriptors.length))
  | announce (h : t.phase = .freed) : AllocStep .finished { m with memoryFreedEvent := true }

end moves

namespace AllocPhase

/-- Its next step is a thread's, not the event loop's. -/
def inThread : AllocPhase → Bool
  | inLine | inLoop _ _ | leaving => true
  | _ => false

/-- Between giving the lock back and adding its size. -/
def midway : AllocPhase → Bool
  | released | granted => true
  | _ => false

end AllocPhase

structure MemoryCache (Device : Type) where
  shared : SharedMemory Device
  allocations : List (Allocation Device)
  allocatedTensors : Dict Nat (TensorDescriptor Device)

namespace MemoryCache

def new : MemoryCache Device := ⟨⟨0, 0, 0, .none, false, []⟩, [], .empty⟩

/-- What the runtime does on a message: make the tensors, or delete them. -/
def receive (tensors : Dict Nat (TensorDescriptor Device)) (message : CacheMessage Device) :
    Dict Nat (TensorDescriptor Device) :=
  message.2.elim (message.1.foldl Dict.erase tensors) fun descriptors =>
    (message.1.zip descriptors).foldl (fun d e => d.set e.1 e.2) tensors

/-- The tensors once the pipe is empty. -/
def drained (s : MemoryCache Device) : Dict Nat (TensorDescriptor Device) :=
  s.shared.pipe.foldl receive s.allocatedTensors

/-- `use_cache`; `none` is a `KeyError`. -/
def useCache (s : MemoryCache Device) (handles : List Nat) : Option (List (TensorDescriptor Device)) :=
  handles.mapM s.drained.get?

variable [DecidableEq Device]

/-- One step of the whole: an allocation is asked for, or takes a step if no
other of its process is midway, or the runtime reads a message. -/
inductive Step (maxSizeBytes handlers : Nat) (cutOffs : Bool) : MemoryCache Device → MemoryCache Device → Prop
  | ask {s : MemoryCache Device} {handler : Nat} {descriptors : List (TensorDescriptor Device)} {immediate : Bool}
      {allocSize : Nat} (hhandler : handler < handlers) (hsize : getAllocationSize descriptors = .some allocSize) :
      Step maxSizeBytes handlers cutOffs s
        { s with allocations := s.allocations ++ [⟨handler, descriptors, immediate, allocSize, .arrived⟩] }
  | alloc {s : MemoryCache Device} {i : Nat} {t : Allocation Device} {p : AllocPhase} {m : SharedMemory Device}
      (ht : s.allocations[i]? = .some t) (h : AllocStep maxSizeBytes cutOffs i t s.shared p m)
      (hloop : t.phase.inThread = false → ∀ j u, j ≠ i → s.allocations[j]? = .some u → u.handler = t.handler →
        u.phase.midway = false) :
      Step maxSizeBytes handlers cutOffs s
        { s with shared := m, allocations := s.allocations.set i { t with phase := p } }
  | receive {s : MemoryCache Device} {message : CacheMessage Device} {rest : List (CacheMessage Device)}
      (h : s.shared.pipe = message :: rest) :
      Step maxSizeBytes handlers cutOffs s
        { s with
          shared := { s.shared with pipe := rest }
          allocatedTensors := MemoryCache.receive s.allocatedTensors message }

/-- A state some interleaving leads to. -/
def Reachable (maxSizeBytes handlers : Nat) (cutOffs : Bool) (s : MemoryCache Device) : Prop :=
  Relation.ReflTransGen (Step maxSizeBytes handlers cutOffs) new s

end MemoryCache

/-! ## What the sizes say -/

namespace AllocPhase

/-- Counted among the enqueued. -/
def queued : AllocPhase → Bool
  | enqueued | read _ | inLine | checking | back _ | passed | released | failing => true
  | inLoop _ asker => asker ≠ .gone
  | _ => false

/-- Counted in the current size. -/
def holds : AllocPhase → Bool
  | held _ => true
  | _ => false

/-- Let through, and not yet counted in the current size. -/
def pending : AllocPhase → Bool
  | back found => found
  | passed | released | granted => true
  | _ => false

end AllocPhase

/-- The sizes of the allocations in some phases. -/
def sizeIn (f : AllocPhase → Bool) (allocations : List (Allocation Device)) : Nat :=
  (allocations.map fun t => if f t.phase then t.allocSize else 0).sum

theorem sizeIn_set (f : AllocPhase → Bool) {allocations : List (Allocation Device)} {i : Nat}
    {t : Allocation Device} (ht : allocations[i]? = .some t) (p : AllocPhase) :
    sizeIn f (allocations.set i { t with phase := p }) + (if f t.phase then t.allocSize else 0) =
      sizeIn f allocations + (if f p then t.allocSize else 0) := by
  obtain ⟨hi, rfl⟩ := List.getElem?_eq_some_iff.1 ht
  have hset := ((List.set_perm_cons_eraseIdx hi { allocations[i] with phase := p }).map fun t =>
    if f t.phase then t.allocSize else 0).sum_eq
  have hold := ((List.getElem_cons_eraseIdx_perm hi).map fun t : Allocation Device =>
    if f t.phase then t.allocSize else 0).sum_eq
  simp only [List.map_cons, List.sum_cons] at hset hold
  simp only [sizeIn]
  omega

theorem le_sizeIn {f : AllocPhase → Bool} {allocations : List (Allocation Device)} {i : Nat} {t : Allocation Device}
    (ht : allocations[i]? = .some t) (hf : f t.phase = true) : t.allocSize ≤ sizeIn f allocations := by
  obtain ⟨hi, rfl⟩ := List.getElem?_eq_some_iff.1 ht
  have hold := ((List.getElem_cons_eraseIdx_perm hi).map fun t : Allocation Device =>
    if f t.phase then t.allocSize else 0).sum_eq
  simp only [List.map_cons, List.sum_cons, hf, if_true] at hold
  simp only [sizeIn]
  omega

section step

variable {maxSizeBytes handlers i : Nat} {cutOffs : Bool} {t : Allocation Device} {m m' : SharedMemory Device}
  {p : AllocPhase}

/-- A step moves an allocation's size between the counts as its phase says. -/
theorem AllocStep.sizes (h : AllocStep maxSizeBytes cutOffs i t m p m')
    (hcurrent : t.phase.holds = true → t.allocSize ≤ m.currentSizeBytes)
    (henqueued : t.phase.queued = true → t.allocSize ≤ m.enqueuedSizeBytes) :
    m'.currentSizeBytes + (if t.phase.holds then t.allocSize else 0) =
        m.currentSizeBytes + (if p.holds then t.allocSize else 0) ∧
      m'.enqueuedSizeBytes + (if t.phase.queued then t.allocSize else 0) =
        m.enqueuedSizeBytes + (if p.queued then t.allocSize else 0) := by
  cases h with
  | enqueue h => cases hi : t.immediate <;> simp [h, AllocPhase.holds, AllocPhase.queued, SharedMemory.enqueue]
  | @tooLarge asker h | @find asker h | @expire asker h =>
    cases asker <;> simp [h, AllocPhase.holds, AllocPhase.queued, Asker.resumed]
  | _ => simp_all [AllocPhase.holds, AllocPhase.queued, SharedMemory.dequeue, SharedMemory.commit, SharedMemory.free]

end step

namespace MemoryCache

variable [DecidableEq Device] {maxSizeBytes handlers : Nat} {cutOffs : Bool} {s s' : MemoryCache Device}

omit [DecidableEq Device] in
/-- The two counts are what they count. -/
structure Counts (s : MemoryCache Device) : Prop where
  current : s.shared.currentSizeBytes = sizeIn AllocPhase.holds s.allocations
  enqueued : s.shared.enqueuedSizeBytes = sizeIn AllocPhase.queued s.allocations

theorem Counts.step (h : s.Counts) (hstep : Step maxSizeBytes handlers cutOffs s s') : s'.Counts := by
  obtain ⟨hcurrent, henqueued⟩ := h
  cases hstep with
  | ask => exact ⟨by simpa [sizeIn, AllocPhase.holds] using hcurrent, by simpa [sizeIn, AllocPhase.queued] using henqueued⟩
  | receive => exact ⟨hcurrent, henqueued⟩
  | @alloc i t p m ht h =>
    obtain ⟨hc, hq⟩ := h.sizes (fun hf => hcurrent ▸ le_sizeIn ht hf) (fun hf => henqueued ▸ le_sizeIn ht hf)
    have hholds := sizeIn_set AllocPhase.holds ht p
    have hqueued := sizeIn_set AllocPhase.queued ht p
    refine ⟨?_, ?_⟩ <;> simp only <;> omega

/-! ## What the runtime has -/

end MemoryCache

/-- The tensors of an allocation that holds memory, under their handles. -/
def Allocation.entries (t : Allocation Device) : List (Nat × TensorDescriptor Device) :=
  match t.phase with
  | .held first => (handlesFrom first t.descriptors.length).zip t.descriptors
  | _ => []

theorem Allocation.entries_eq_nil {t : Allocation Device} (h : t.phase.holds = false) : t.entries = [] := by
  unfold entries
  split
  · rename_i hphase
    rw [hphase] at h
    cases h
  · rfl

theorem Allocation.entries_held {t : Allocation Device} {first : Nat} (h : t.phase = .held first) :
    t.entries = (handlesFrom first t.descriptors.length).zip t.descriptors := by
  rw [entries, h]

theorem entries_handles (first : Nat) (descriptors : List (TensorDescriptor Device)) :
    ((handlesFrom first descriptors.length).zip descriptors).map Prod.fst = handlesFrom first descriptors.length :=
  List.map_fst_zip (by simp)

/-- Only taking memory and giving it back send messages. -/
theorem AllocStep.messages {maxSizeBytes i : Nat} {cutOffs : Bool} {t : Allocation Device}
    {m m' : SharedMemory Device} {p : AllocPhase} (h : AllocStep maxSizeBytes cutOffs i t m p m') :
    m'.pipe = m.pipe ∧ m'.handleCounter = m.handleCounter ∧ t.phase.holds = false ∧ p.holds = false ∨
    p = .held m.handleCounter ∧ t.phase.holds = false ∧ m' = m.commit t.allocSize t.descriptors ∨
    ∃ first, t.phase = .held first ∧ p = .freed ∧ m' = m.free t.allocSize (handlesFrom first t.descriptors.length) := by
  cases h with
  | commit h => exact .inr (.inl ⟨rfl, by rw [h]; rfl, rfl⟩)
  | free h => exact .inr (.inr ⟨_, h, rfl, rfl⟩)
  | enqueue h => cases hi : t.immediate <;> exact .inl ⟨rfl, rfl, by rw [h]; rfl, rfl⟩
  | @tooLarge asker h | @find asker h | @expire asker h =>
    cases asker <;> exact .inl ⟨rfl, rfl, by rw [h]; rfl, rfl⟩
  | _ => exact .inl ⟨rfl, rfl, by simp [*, AllocPhase.holds], rfl⟩

namespace MemoryCache

variable {maxSizeBytes handlers : Nat} {cutOffs : Bool} {s s' : MemoryCache Device}

/-- The runtime has, once it has read all messages, the tensors of the
allocations that hold memory. -/
structure Tensors (s : MemoryCache Device) : Prop where
  made : s.drained.items.Perm (s.allocations.flatMap Allocation.entries)
  below : ∀ t ∈ s.allocations, ∀ first, t.phase = .held first →
    first + t.descriptors.length ≤ s.shared.handleCounter

theorem Tensors.lt_counter (h : s.Tensors) {handle : Nat} (hk : handle ∈ s.drained.keys) :
    handle < s.shared.handleCounter := by
  obtain ⟨⟨handle, descr⟩, hmem, rfl⟩ := List.mem_map.1 hk
  obtain ⟨t, ht, hentry⟩ := List.mem_flatMap.1 (h.made.mem_iff.1 hmem)
  cases hphase : t.phase with
  | held first =>
    rw [Allocation.entries_held hphase] at hentry
    have hhandle := List.mem_map_of_mem (f := Prod.fst) hentry
    rw [entries_handles, List.mem_range'_1] at hhandle
    have := h.below t ht first hphase
    simp only at hhandle
    omega
  | _ =>
    rw [Allocation.entries_eq_nil (by rw [hphase]; rfl)] at hentry
    cases hentry

/-- A message that makes tensors under new handles. -/
theorem items_receive_made {d : Dict Nat (TensorDescriptor Device)} {first : Nat}
    (hd : ∀ handle ∈ d.keys, handle < first) (descriptors : List (TensorDescriptor Device)) :
    (receive d (handlesFrom first descriptors.length, .some descriptors)).items =
      d.items ++ (handlesFrom first descriptors.length).zip descriptors := by
  refine Dict.items_foldl_set ?_ fun handle hk hold => ?_
  · rw [entries_handles]
    exact List.nodup_range'
  · rw [entries_handles, List.mem_range'_1] at hk
    have := hd handle hold
    omega

/-- A message that deletes the tensors of one allocation leaves the others'. -/
theorem items_receive_deleted {d : Dict Nat (TensorDescriptor Device)} {t : Allocation Device} {first : Nat}
    (ht : t.phase = .held first) {others : List (Nat × TensorDescriptor Device)}
    (hd : d.items.Perm (t.entries ++ others)) :
    (receive d (handlesFrom first t.descriptors.length, .none)).items.Perm others := by
  have hitems : (receive d (handlesFrom first t.descriptors.length, .none)).items =
      d.items.filter fun e => e.1 ∉ handlesFrom first t.descriptors.length := Dict.items_foldl_erase _ d
  have hkeys : t.entries.map Prod.fst = handlesFrom first t.descriptors.length := by
    rw [Allocation.entries_held ht, entries_handles]
  have hn : ((t.entries ++ others).map Prod.fst).Nodup := (hd.map Prod.fst).nodup_iff.1 d.nodup
  rw [List.map_append, List.nodup_append, hkeys] at hn
  have hgone : (t.entries.filter fun e => e.1 ∉ handlesFrom first t.descriptors.length) = [] := by
    refine List.filter_eq_nil_iff.2 fun e he => ?_
    have := List.mem_map_of_mem (f := Prod.fst) he
    rw [hkeys] at this
    simpa using this
  have hkept : (others.filter fun e => e.1 ∉ handlesFrom first t.descriptors.length) = others := by
    refine List.filter_eq_self.2 fun e he => ?_
    have hother : ∀ handle ∈ handlesFrom first t.descriptors.length, handle ≠ e.1 := fun handle hk =>
      hn.2.2 handle hk e.1 (List.mem_map_of_mem he)
    exact decide_eq_true fun hk => hother e.1 hk rfl
  rw [hitems]
  refine (hd.filter _).trans ?_
  rw [List.filter_append, hgone, hkept, List.nil_append]

variable [DecidableEq Device]

theorem Tensors.step (h : s.Tensors) (hstep : Step maxSizeBytes handlers cutOffs s s') : s'.Tensors := by
  cases hstep with
  | ask =>
    refine ⟨?_, ?_⟩
    · simpa [drained, Allocation.entries] using h.made
    · intro t ht first hphase
      rcases List.mem_append.1 ht with ht | ht
      · exact h.below t ht first hphase
      · obtain rfl := List.mem_singleton.1 ht
        cases hphase
  | receive hpipe =>
    refine ⟨?_, h.below⟩
    have := h.made
    rw [drained, hpipe] at this
    exact this
  | @alloc i t p m ht hmove =>
    obtain ⟨hi, rfl⟩ := List.getElem?_eq_some_iff.1 ht
    have hold := (List.getElem_cons_eraseIdx_perm hi).flatMap_right Allocation.entries
    have hnew := (List.set_perm_cons_eraseIdx hi { s.allocations[i] with phase := p }).flatMap_right
      Allocation.entries
    rw [List.flatMap_cons] at hold hnew
    have hothers : ∀ t ∈ s.allocations.set i { s.allocations[i] with phase := p }, ∀ first, t.phase = .held first →
        t ∈ s.allocations ∨ t = { s.allocations[i] with phase := p } := fun t ht _ _ =>
      List.mem_or_eq_of_mem_set ht
    rcases hmove.messages with ⟨hpipe, hcounter, hfrom, hto⟩ | ⟨rfl, hfrom, rfl⟩ | ⟨first, hfrom, rfl, rfl⟩
    · have hnone : ({ s.allocations[i] with phase := p } : Allocation Device).entries = [] :=
        Allocation.entries_eq_nil hto
      rw [Allocation.entries_eq_nil hfrom] at hold
      rw [hnone] at hnew
      refine ⟨?_, fun t ht first hphase => ?_⟩
      · have hdrained : (drained { s with
            shared := m, allocations := s.allocations.set i { s.allocations[i] with phase := p } }) = s.drained := by
          simp only [drained, hpipe]
        rw [hdrained]
        exact h.made.trans (hold.symm.trans hnew.symm)
      · rcases hothers t ht first hphase with hmem | rfl
        · simpa [hcounter] using h.below t hmem first hphase
        · rw [show p = .held first from hphase] at hto
          cases hto
    · rw [Allocation.entries_eq_nil hfrom, List.nil_append] at hold
      have hentries : ({ s.allocations[i] with phase := .held s.shared.handleCounter } : Allocation Device).entries =
          (handlesFrom s.shared.handleCounter s.allocations[i].descriptors.length).zip s.allocations[i].descriptors :=
        Allocation.entries_held rfl
      rw [hentries] at hnew
      refine ⟨?_, fun t ht first hphase => ?_⟩
      · simp only [drained, SharedMemory.commit, List.foldl_append, List.foldl_cons, List.foldl_nil]
        refine (items_receive_made (fun handle => h.lt_counter) _).symm ▸ ?_
        exact (List.perm_append_comm.trans (((h.made.trans hold.symm).append_left _))).trans hnew.symm
      · simp only [SharedMemory.commit]
        rcases hothers t ht first hphase with hmem | rfl
        · have := h.below t hmem first hphase
          omega
        · obtain rfl := AllocPhase.held.inj hphase
          exact Nat.le_refl _
    · have hnone : ({ s.allocations[i] with phase := .freed } : Allocation Device).entries = [] :=
        Allocation.entries_eq_nil rfl
      rw [hnone, List.nil_append] at hnew
      refine ⟨?_, fun t ht first' hphase => ?_⟩
      · simp only [drained, SharedMemory.free, List.foldl_append, List.foldl_cons, List.foldl_nil]
        exact (items_receive_deleted hfrom (h.made.trans hold.symm)).trans hnew.symm
      · simp only [SharedMemory.free]
        rcases hothers t ht first' hphase with hmem | rfl
        · exact h.below t hmem first' hphase
        · cases hphase

end MemoryCache

section sizes

variable [DecidableEq Device]

/-- The memory that tensors take on one device. -/
def sizeOn (device : Device) (descriptors : List (TensorDescriptor Device)) : Nat :=
  (descriptors.map fun descr => if descr.device = device then descr.size else 0).sum

theorem sizeOn_le {descriptors : List (TensorDescriptor Device)} {allocSize : Nat}
    (h : getAllocationSize descriptors = .some allocSize) (device : Device) :
    sizeOn device descriptors ≤ allocSize := by
  have hfold : ∀ sizes : Dict Device Nat, (((descriptors.foldl (fun (sizes : Dict Device Nat) descr =>
      sizes.set descr.device ((sizes.get? descr.device).getD 0 + descr.size)) sizes).get? device).getD 0) =
      (sizes.get? device).getD 0 + sizeOn device descriptors := by
    clear h
    induction descriptors with
    | nil => simp [sizeOn]
    | cons descr descriptors ih =>
      intro sizes
      rw [List.foldl_cons, ih, Dict.get?_set, sizeOn, sizeOn, List.map_cons, List.sum_cons]
      by_cases hd : device = descr.device
      · subst hd
        simp only [if_true, Option.getD_some]
        omega
      · rw [if_neg hd, if_neg (Ne.symm hd), Nat.zero_add]
  have hsizes := hfold .empty
  rw [getAllocationSize] at h
  generalize descriptors.foldl (fun (sizes : Dict Device Nat) descr =>
      sizes.set descr.device ((sizes.get? descr.device).getD 0 + descr.size)) .empty = sizes at h hsizes
  have hzero : ((Dict.empty : Dict Device Nat).get? device).getD 0 = 0 := rfl
  rw [hzero, Nat.zero_add] at hsizes
  cases hget : sizes.get? device with
  | none =>
    rw [hget, Option.getD_none] at hsizes
    omega
  | some size =>
    rw [hget, Option.getD_some] at hsizes
    rw [← hsizes]
    exact (List.max?_eq_some_iff.1 h).2 size (Dict.mem_values.2 ⟨device, hget⟩)

end sizes

namespace MemoryCache

variable [DecidableEq Device] {maxSizeBytes handlers : Nat} {cutOffs : Bool} {s s' : MemoryCache Device}

/-- Every allocation counts for what its tensors take on the fullest device. -/
def Sized (s : MemoryCache Device) : Prop :=
  ∀ t ∈ s.allocations, getAllocationSize t.descriptors = .some t.allocSize

theorem Sized.step (h : s.Sized) (hstep : Step maxSizeBytes handlers cutOffs s s') : s'.Sized := by
  cases hstep with
  | receive => exact h
  | ask hhandler hsize =>
    intro t ht
    rcases List.mem_append.1 ht with ht | ht
    · exact h t ht
    · obtain rfl := List.mem_singleton.1 ht
      exact hsize
  | @alloc i t p m ht =>
    intro u hu
    rcases List.mem_or_eq_of_mem_set hu with hu | rfl
    · exact h u hu
    · exact h t (List.mem_of_getElem? ht)

theorem Reachable.invariant {I : MemoryCache Device → Prop} (h : Reachable maxSizeBytes handlers cutOffs s)
    (hnew : I new) (hstep : ∀ s s', I s → Step maxSizeBytes handlers cutOffs s s' → I s') : I s := by
  have hrun : Relation.ReflTransGen (Step maxSizeBytes handlers cutOffs) new s := h
  induction hrun with
  | refl => exact hnew
  | tail hrun hlast ih => exact hstep _ _ (ih hrun) hlast

theorem Reachable.counts (h : Reachable maxSizeBytes handlers cutOffs s) : s.Counts :=
  h.invariant ⟨rfl, rfl⟩ fun _ _ => .step

theorem Reachable.tensors (h : Reachable maxSizeBytes handlers cutOffs s) : s.Tensors :=
  h.invariant ⟨List.Perm.refl _, by simp [new]⟩ fun _ _ => .step

theorem Reachable.sized (h : Reachable maxSizeBytes handlers cutOffs s) : s.Sized :=
  h.invariant (by simp [Sized, new]) fun _ _ => .step

omit [DecidableEq Device] in
/-- Entries of a dict are found under their keys. -/
theorem mapM_get? {d : Dict Nat (TensorDescriptor Device)} {entries : List (Nat × TensorDescriptor Device)}
    (h : ∀ e ∈ entries, e ∈ d.items) : (entries.map Prod.fst).mapM d.get? = .some (entries.map Prod.snd) := by
  induction entries with
  | nil => rfl
  | cons e entries ih =>
    rw [List.forall_mem_cons] at h
    rw [List.map_cons, List.mapM_cons, Dict.get?_eq_some.2 h.1, ih h.2]
    rfl

omit [DecidableEq Device] in
theorem Tensors.useCache (h : s.Tensors) {t : Allocation Device} (ht : t ∈ s.allocations) {first : Nat}
    (hphase : t.phase = .held first) :
    s.useCache (handlesFrom first t.descriptors.length) = .some t.descriptors := by
  have hentries := Allocation.entries_held hphase
  have hfound : (t.entries.map Prod.fst).mapM s.drained.get? = .some (t.entries.map Prod.snd) := mapM_get? fun e he =>
    h.made.mem_iff.2 (List.mem_flatMap.2 ⟨t, ht, he⟩)
  rw [hentries, entries_handles] at hfound
  rw [MemoryCache.useCache, hfound, List.map_snd_zip (by simp)]

/-- The tensors on one device take no more than the current size. -/
theorem Tensors.sizeOn_le (h : s.Tensors) (hcounts : s.Counts) (hsized : s.Sized) (device : Device) :
    sizeOn device s.drained.values ≤ s.shared.currentSizeBytes := by
  have hperm := (h.made.map Prod.snd).map fun descr : TensorDescriptor Device =>
    if descr.device = device then descr.size else 0
  rw [sizeOn, Dict.values, hperm.sum_eq, hcounts.current]
  have hall : ∀ l : List (Allocation Device), (∀ t ∈ l, getAllocationSize t.descriptors = .some t.allocSize) →
      (((l.flatMap Allocation.entries).map Prod.snd).map fun descr : TensorDescriptor Device =>
        if descr.device = device then descr.size else 0).sum ≤ sizeIn AllocPhase.holds l := by
    intro l hl
    induction l with
    | nil => simp [sizeIn]
    | cons t l ih =>
      rw [List.forall_mem_cons] at hl
      have hrest := ih hl.2
      have hone := Petals.sizeOn_le hl.1 device
      simp only [List.flatMap_cons, List.map_append, List.sum_append, sizeIn, List.map_cons, List.sum_cons] at hrest ⊢
      cases hholds : t.phase.holds with
      | false =>
        rw [Allocation.entries_eq_nil hholds]
        simpa using hrest
      | true =>
        have hsnd : t.entries.map Prod.snd = t.descriptors := by
          cases hphase : t.phase with
          | held first => rw [Allocation.entries_held hphase, List.map_snd_zip (by simp)]
          | _ => simp [hphase, AllocPhase.holds] at hholds
        rw [hsnd]
        rw [sizeOn] at hone
        simp only [if_true]
        omega
  exact hall s.allocations hsized

end MemoryCache

/-! ## A run that fills the cache once for each process -/

section fill

variable [DecidableEq Device] {maxSizeBytes handlers : Nat} {cutOffs : Bool}
  (descriptors : List (TensorDescriptor Device))

/-- An allocation of the whole cache by one process. -/
def wholeCache (maxSizeBytes handler : Nat) (phase : AllocPhase) : Allocation Device :=
  ⟨handler, descriptors, false, maxSizeBytes, phase⟩

variable {descriptors}

open MemoryCache

omit [DecidableEq Device] in
theorem others_handlers {before after : List (Allocation Device)} {t : Allocation Device}
    (hbefore : ∀ u ∈ before, u.handler ≠ t.handler) (hafter : ∀ u ∈ after, u.handler ≠ t.handler) (j : Nat)
    (u : Allocation Device) (hj : j ≠ before.length) (hu : (before ++ t :: after)[j]? = .some u) :
    u.handler ≠ t.handler := by
  rw [List.getElem?_append] at hu
  split at hu
  · exact hbefore u (List.mem_of_getElem? hu)
  · obtain ⟨k, hk⟩ : ∃ k, j - before.length = k + 1 := ⟨j - before.length - 1, by omega⟩
    rw [hk, List.getElem?_cons_succ] at hu
    exact hafter u (List.mem_of_getElem? hu)

/-- The step of an allocation none of whose process is another. -/
theorem step_among {before after : List (Allocation Device)} {t : Allocation Device} {p : AllocPhase}
    {m m' : SharedMemory Device} {tensors : Dict Nat (TensorDescriptor Device)}
    (hbefore : ∀ u ∈ before, u.handler ≠ t.handler) (hafter : ∀ u ∈ after, u.handler ≠ t.handler)
    (h : AllocStep maxSizeBytes cutOffs before.length t m p m') :
    Step maxSizeBytes handlers cutOffs ⟨m, before ++ t :: after, tensors⟩
      ⟨m', before ++ { t with phase := p } :: after, tensors⟩ := by
  have hstep : Step maxSizeBytes handlers cutOffs ⟨m, before ++ t :: after, tensors⟩
      ⟨m', (before ++ t :: after).set before.length { t with phase := p }, tensors⟩ :=
    Step.alloc (by simp) h fun _ j u hj hu hsame => absurd hsame (others_handlers hbefore hafter j u hj hu)
  simpa using hstep

/-- Each process is let through in turn, and none has added its size yet. -/
theorem reachable_granted (hsize : getAllocationSize descriptors = .some maxSizeBytes) {n : Nat} (hn : n ≤ handlers) :
    Reachable maxSizeBytes handlers cutOffs ⟨⟨0, 0, 0, .none, false, []⟩,
      (List.range n).map fun handler => wholeCache descriptors maxSizeBytes handler .granted, .empty⟩ := by
  induction n with
  | zero => exact .refl
  | succ n ih =>
    rw [List.range_succ, List.map_append, List.map_singleton]
    generalize hbefore : (List.range n).map (fun handler => wholeCache descriptors maxSizeBytes handler .granted) =
      before at ih ⊢
    have hothers : ∀ p, ∀ u ∈ before, u.handler ≠ (wholeCache descriptors maxSizeBytes n p).handler := by
      intro p u hu
      rw [← hbefore] at hu
      obtain ⟨handler, hhandler, rfl⟩ := List.mem_map.1 hu
      exact Nat.ne_of_lt (List.mem_range.1 hhandler)
    have hstep : ∀ {p p' : AllocPhase} {m m' : SharedMemory Device}, AllocStep maxSizeBytes cutOffs before.length
        (wholeCache descriptors maxSizeBytes n p) m p' m' →
        Step maxSizeBytes handlers cutOffs ⟨m, before ++ [wholeCache descriptors maxSizeBytes n p], .empty⟩
          ⟨m', before ++ [wholeCache descriptors maxSizeBytes n p'], .empty⟩ := fun {p} _ _ _ h =>
      step_among (hothers p) (by simp) h
    have hask : Step maxSizeBytes handlers cutOffs ⟨⟨0, 0, 0, .none, false, []⟩, before, .empty⟩
        ⟨⟨0, 0, 0, .none, false, []⟩, before ++ [wholeCache descriptors maxSizeBytes n .arrived], .empty⟩ :=
      Step.ask (by omega) hsize
    have harrived := (ih (by omega)).tail hask
    have hline := harrived.tail (hstep (p := .arrived) (.enqueue rfl))
    have hchecking := hline.tail (hstep (p := .inLine) (.acquire rfl rfl))
    have hpassed := hchecking.tail (hstep (p := .checking) (.pass rfl (by simp [wholeCache, SharedMemory.enqueue])))
    have hreleased := hpassed.tail (hstep (p := .passed) (.release rfl))
    have hgranted := hreleased.tail (hstep (p := .released) (.dequeue rfl))
    simpa [Reachable, SharedMemory.enqueue, SharedMemory.dequeue, wholeCache] using hgranted

variable (cutOffs) in
/-- And then all add their sizes. -/
theorem reachable_filled (hsize : getAllocationSize descriptors = .some maxSizeBytes) {k : Nat} (hk : k ≤ handlers) :
    ∃ m done, Reachable maxSizeBytes handlers cutOffs ⟨m, done ++ (List.range' k (handlers - k)).map fun handler =>
        wholeCache descriptors maxSizeBytes handler .granted, .empty⟩ ∧
      (∀ u ∈ done, u.handler < k) ∧ m.currentSizeBytes = k * maxSizeBytes := by
  induction k with
  | zero =>
    have hgranted : Reachable maxSizeBytes handlers cutOffs _ := reachable_granted hsize (Nat.le_refl handlers)
    rw [List.range_eq_range'] at hgranted
    exact ⟨_, [], hgranted, by simp, by simp⟩
  | succ k ih =>
    obtain ⟨m, done, hreach, hdone, hcurrent⟩ := ih (by omega)
    obtain ⟨n, hn⟩ : ∃ n, handlers - k = n + 1 := ⟨handlers - k - 1, by omega⟩
    have hn' : handlers - (k + 1) = n := by omega
    rw [hn, List.range'_succ, List.map_cons] at hreach
    have hbefore : ∀ u ∈ done, u.handler ≠ (wholeCache descriptors maxSizeBytes k .granted).handler :=
      fun u hu => Nat.ne_of_lt (hdone u hu)
    have hafter : ∀ u ∈ (List.range' (k + 1) n).map fun handler => wholeCache descriptors maxSizeBytes handler .granted,
        u.handler ≠ (wholeCache descriptors maxSizeBytes k .granted).handler := by
      intro u hu
      obtain ⟨handler, hhandler, rfl⟩ := List.mem_map.1 hu
      have := (List.mem_range'_1.1 hhandler).1
      simp only [wholeCache]
      omega
    have hnext := hreach.tail (step_among hbefore hafter (.commit rfl))
    refine ⟨m.commit maxSizeBytes descriptors,
      done ++ [wholeCache descriptors maxSizeBytes k (.held m.handleCounter)], ?_, ?_, ?_⟩
    · rw [hn', List.append_assoc, List.singleton_append]
      exact hnext
    · intro u hu
      rcases List.mem_append.1 hu with hu | hu
      · exact Nat.lt_succ_of_lt (hdone u hu)
      · obtain rfl := List.mem_singleton.1 hu
        exact Nat.lt_succ_self k
    · simp only [SharedMemory.commit, hcurrent, Nat.add_mul, Nat.one_mul]

end fill

open MemoryCache in
/-- **What the cache says of itself.** In whatever order the steps of all
processes come: the current size is what the allocations that hold memory asked
for and the enqueued size what those under way did; the runtime, once it has
read its messages, has exactly the tensors of those that hold memory, each
found under its handles; and on no device do they take more than the current
size. -/
theorem memory_accounts [DecidableEq Device] {maxSizeBytes handlers : Nat} {cutOffs : Bool} {s : MemoryCache Device}
    (h : Reachable maxSizeBytes handlers cutOffs s) :
    s.shared.currentSizeBytes = sizeIn AllocPhase.holds s.allocations ∧
      s.shared.enqueuedSizeBytes = sizeIn AllocPhase.queued s.allocations ∧
      (∀ t ∈ s.allocations, ∀ first, t.phase = .held first →
        s.useCache (handlesFrom first t.descriptors.length) = .some t.descriptors) ∧
      (∀ handle descr, s.drained.get? handle = .some descr ↔ ∃ t ∈ s.allocations, (handle, descr) ∈ t.entries) ∧
      ∀ device, sizeOn device s.drained.values ≤ s.shared.currentSizeBytes := by
  have htensors := h.tensors
  refine ⟨h.counts.current, h.counts.enqueued, fun t ht first => htensors.useCache ht, fun handle descr => ?_,
    htensors.sizeOn_le h.counts h.sized⟩
  rw [Dict.get?_eq_some, htensors.made.mem_iff, List.mem_flatMap]

/-! One tensor on one device, which takes the whole of a cache of four bytes. -/

def fourBytes : List (TensorDescriptor Unit) := [⟨(), 2, 2⟩]

theorem getAllocationSize_fourBytes : getAllocationSize fourBytes = .some 4 := by decide

theorem memory_accounts_fourBytes : ∃ s : MemoryCache Unit, MemoryCache.Reachable 4 2 false s ∧
    sizeIn AllocPhase.holds s.allocations = 8 := by
  obtain ⟨m, done, hreach, -, hcurrent⟩ := reachable_filled false getAllocationSize_fourBytes (by decide : 2 ≤ 2)
  exact ⟨_, hreach, (memory_accounts hreach).1.symm.trans hcurrent⟩

end Petals

end Blitzwing
