/-
The lock of the memory cache: who is let through, how much that can be, and who
sleeps.

A check counts the sizes that were added, not those let through. So each
process can be let through once before any adds its size, and the cache filled
once for each (`memory_cap`). Under the lock one allocation at a time waits for
memory; it is told of all memory given back, unless a thread left behind by one
that timed out takes the news (`no_lost_wakeup`).
-/
import Blitzwing.Petals.MemoryCache

namespace Blitzwing

namespace Petals

variable {Device : Type}

/-! ## Who holds the lock, and who was let through -/

namespace AllocPhase

/-- It has the lock, or a thread of it has. -/
def locks : AllocPhase → Bool
  | checking | back _ | passed | leaked => true
  | inLoop _ asker => asker = .waits
  | _ => false

/-- Past its first check, and not yet counted in the current size. -/
def past : AllocPhase → Bool
  | back _ | passed | released | granted => true
  | inLoop _ asker => asker = .waits
  | _ => false

theorem past_of_pending {p : AllocPhase} (h : p.pending = true) : p.past = true := by cases p <;> simp_all [pending, past]

/-- Let through: it has the lock still, or is midway. -/
theorem locks_or_midway {p : AllocPhase} (h : p.pending = true) : p.locks = true ∨ p.midway = true := by
  cases p <;> simp_all [pending, locks, midway]

end AllocPhase

section step

variable {maxSizeBytes i : Nat} {cutOffs : Bool} {t : Allocation Device} {m m' : SharedMemory Device}
  {p : AllocPhase} (h : AllocStep maxSizeBytes cutOffs i t m p m')

include h

/-- The lock is taken only when it is free, and given back by who has it. -/
theorem AllocStep.lock : (p.locks = true → t.phase.locks = true ∧ m'.lockAcquireMemory = m.lockAcquireMemory ∨
      m'.lockAcquireMemory = .some i) ∧
    (t.phase.locks = false → m.lockAcquireMemory = .none ∨ m'.lockAcquireMemory = m.lockAcquireMemory) := by
  cases h with
  | enqueue h => cases hi : t.immediate <;> simp [h, AllocPhase.locks, SharedMemory.enqueue]
  | @tooLarge asker h | @find asker h | @expire asker h =>
    cases asker <;> simp [h, AllocPhase.locks, Asker.resumed]
  | _ => simp_all [AllocPhase.locks, SharedMemory.dequeue, SharedMemory.commit, SharedMemory.free]

/-- An allocation gets past its check from the check, and is let through there
or in the loop, when its size fits. -/
theorem AllocStep.let_through : (p.past = true → t.phase.past = true ∨ t.phase = .checking) ∧
    (p.pending = true → t.phase.pending = true ∨
      (t.phase = .checking ∨ t.phase = .inLoop .looking .waits) ∧ m' = m ∧
        m.currentSizeBytes + t.allocSize ≤ maxSizeBytes) := by
  cases h with
  | enqueue h => cases hi : t.immediate <;> simp [AllocPhase.past, AllocPhase.pending]
  | @tooLarge asker h | @expire asker h =>
    cases asker <;> simp [h, AllocPhase.past, AllocPhase.pending, Asker.resumed]
  | @find asker h hfits => cases asker <;> simp [h, AllocPhase.past, AllocPhase.pending, Asker.resumed, hfits]
  | _ => simp_all [AllocPhase.past, AllocPhase.pending]

/-- Once let through, its size is counted once more nowhere. -/
theorem AllocStep.counted (hold : p.pending = true → t.phase.pending = true) :
    m'.currentSizeBytes + (if p.pending then t.allocSize else 0) ≤
      m.currentSizeBytes + (if t.phase.pending then t.allocSize else 0) := by
  cases h with
  | enqueue h => cases hi : t.immediate <;> simp [h, AllocPhase.pending, SharedMemory.enqueue]
  | @tooLarge asker h | @find asker h | @expire asker h =>
    cases asker <;> simp_all [AllocPhase.pending, Asker.resumed]
  | _ => simp_all [AllocPhase.pending, SharedMemory.dequeue, SharedMemory.commit, SharedMemory.free]

end step

theorem sizeIn_le {f : AllocPhase → Bool} {allocations : List (Allocation Device)} {maxSizeBytes : Nat}
    (h : ∀ t ∈ allocations, f t.phase = true → t.allocSize ≤ maxSizeBytes) :
    sizeIn f allocations ≤ (allocations.filter fun t => f t.phase).length * maxSizeBytes := by
  induction allocations with
  | nil => simp [sizeIn]
  | cons t allocations ih =>
    rw [List.forall_mem_cons] at h
    have hrest := ih h.2
    simp only [sizeIn, List.map_cons, List.sum_cons, List.filter_cons] at hrest ⊢
    cases hf : f t.phase with
    | false => simpa using hrest
    | true =>
      have := h.1 hf
      simp only [if_true, List.length_cons, Nat.add_mul, Nat.one_mul]
      omega

namespace MemoryCache

/-- At most one allocation has the lock, and of each process at most one was
let through. -/
structure Guarded (maxSizeBytes handlers : Nat) (s : MemoryCache Device) : Prop where
  lock : ∀ (i : Nat) (t : Allocation Device), s.allocations[i]? = .some t → t.phase.locks = true →
    s.shared.lockAcquireMemory = .some i
  single : ∀ (i j : Nat) (t u : Allocation Device), s.allocations[i]? = .some t → s.allocations[j]? = .some u →
    t.phase.past = true → u.phase.pending = true → u.handler = t.handler → i = j
  fits : ∀ t ∈ s.allocations, t.phase.pending = true → t.allocSize ≤ maxSizeBytes
  below : ∀ t ∈ s.allocations, t.handler < handlers
  cap : s.shared.currentSizeBytes + sizeIn AllocPhase.pending s.allocations ≤ handlers * maxSizeBytes

variable {maxSizeBytes handlers : Nat} {cutOffs : Bool} {s s' : MemoryCache Device}

/-- So no more are let through than there are processes. -/
theorem length_pending (hsingle : ∀ (i j : Nat) (t u : Allocation Device), s.allocations[i]? = .some t →
      s.allocations[j]? = .some u → t.phase.past = true → u.phase.pending = true → u.handler = t.handler → i = j)
    (hbelow : ∀ t ∈ s.allocations, t.handler < handlers) :
    (s.allocations.filter fun t => t.phase.pending).length ≤ handlers := by
  have hpairs : s.allocations.Pairwise fun (t u : Allocation Device) => t.phase.pending = true → u.phase.pending = true →
      t.handler ≠ u.handler := by
    refine List.pairwise_iff_getElem.2 fun i j hi hj hij ht hu heq => ?_
    have := hsingle i j _ _ (List.getElem?_eq_getElem hi) (List.getElem?_eq_getElem hj)
      (AllocPhase.past_of_pending ht) hu heq.symm
    omega
  have hn : ((s.allocations.filter fun t => t.phase.pending).map (·.handler)).Nodup := by
    rw [List.nodup_iff_pairwise_ne, List.pairwise_map]
    refine (hpairs.filter _).imp_of_mem fun ht hu hne => hne ?_ ?_
    · exact (List.mem_filter.1 ht).2
    · exact (List.mem_filter.1 hu).2
  have hsub : (s.allocations.filter fun t => t.phase.pending).map (·.handler) ⊆ List.range handlers := by
    intro handler hmem
    obtain ⟨t, ht, rfl⟩ := List.mem_map.1 hmem
    exact List.mem_range.2 (hbelow t (List.mem_filter.1 ht).1)
  simpa using (List.subperm_of_subset hn hsub).length_le

/-- The lock, after one allocation's step. -/
theorem Guarded.lock_set (h : s.Guarded maxSizeBytes handlers) {i : Nat} {t : Allocation Device} {p : AllocPhase}
    {m : SharedMemory Device} (ht : s.allocations[i]? = .some t)
    (hstep : AllocStep maxSizeBytes cutOffs i t s.shared p m) {j : Nat} {u : Allocation Device}
    (hu : (s.allocations.set i { t with phase := p })[j]? = .some u) (hlocks : u.phase.locks = true) :
    m.lockAcquireMemory = .some j := by
  obtain ⟨htakes, hkeeps⟩ := hstep.lock
  by_cases hij : i = j
  · subst hij
    rw [List.getElem?_set_self (List.getElem?_eq_some_iff.1 ht).1] at hu
    obtain rfl := Option.some.inj hu
    rcases htakes hlocks with ⟨hlocked, hsame⟩ | htaken
    · rw [hsame]
      exact h.lock i t ht hlocked
    · exact htaken
  · rw [List.getElem?_set_ne hij] at hu
    have hj := h.lock j u hu hlocks
    cases hlocked : t.phase.locks with
    | true =>
      have hi := h.lock i t ht hlocked
      rw [hj] at hi
      exact absurd (Option.some.inj hi).symm hij
    | false =>
      rcases hkeeps hlocked with hfree | hsame
      · rw [hj] at hfree
        cases hfree
      · rw [hsame, hj]

/-- Two of one process past their checks are one and the same. -/
theorem Guarded.single_set (h : s.Guarded maxSizeBytes handlers) {i : Nat} {t : Allocation Device} {p : AllocPhase}
    {m : SharedMemory Device} (ht : s.allocations[i]? = .some t)
    (hstep : AllocStep maxSizeBytes cutOffs i t s.shared p m)
    (hloop : t.phase.inThread = false → ∀ j u, j ≠ i → s.allocations[j]? = .some u → u.handler = t.handler →
      u.phase.midway = false) {j k : Nat} {u v : Allocation Device}
    (hu : (s.allocations.set i { t with phase := p })[j]? = .some u)
    (hv : (s.allocations.set i { t with phase := p })[k]? = .some v) (hpast : u.phase.past = true)
    (hpending : v.phase.pending = true) (hsame : v.handler = u.handler) : j = k := by
  obtain ⟨hpasses, hlets⟩ := hstep.let_through
  have hi := (List.getElem?_eq_some_iff.1 ht).1
  -- the step's allocation, from its check on, is alone with the lock
  have halone : t.phase.locks = true → ∀ k v, k ≠ i → s.allocations[k]? = .some v → v.phase.locks = false := by
    intro hlocked k v hk hv
    cases hlocks : v.phase.locks with
    | false => rfl
    | true =>
      have := h.lock i t ht hlocked
      rw [h.lock k v hv hlocks] at this
      exact absurd (Option.some.inj this) hk
  have hchecking : t.phase = .checking → ∀ k v, k ≠ i → s.allocations[k]? = .some v → v.handler = t.handler →
      v.phase.pending = false := by
    intro hphase k v hk hv hhandler
    have hlocks := halone (by rw [hphase]; rfl) k v hk hv
    have hmidway := hloop (by rw [hphase]; rfl) k v hk hv hhandler
    cases hpending : v.phase.pending with
    | false => rfl
    | true => rcases AllocPhase.locks_or_midway hpending with hl | hm <;> simp_all
  by_cases hij : i = j
  · subst hij
    by_cases hik : i = k
    · exact hik
    · rw [List.getElem?_set_self hi] at hu
      obtain rfl := Option.some.inj hu
      rw [List.getElem?_set_ne hik] at hv
      rcases hpasses hpast with hwas | hphase
      · exact h.single i k t v ht hv hwas hpending hsame
      · rw [hchecking hphase k v (Ne.symm hik) hv hsame] at hpending
        cases hpending
  · rw [List.getElem?_set_ne hij] at hu
    by_cases hik : i = k
    · subst hik
      rw [List.getElem?_set_self hi] at hv
      obtain rfl := Option.some.inj hv
      rcases hlets hpending with hwas | ⟨hphase | hphase, -, -⟩
      · exact h.single j i u t hu ht hpast hwas hsame
      · -- it gets past its check now, and the other is past its own
        have hlocks := halone (by rw [hphase]; rfl) j u (Ne.symm hij) hu
        have hmidway := hloop (by rw [hphase]; rfl) j u (Ne.symm hij) hu hsame.symm
        cases hu : u.phase <;> simp_all [AllocPhase.past, AllocPhase.locks, AllocPhase.midway]
      · have hlocks := halone (by rw [hphase]; rfl) j u (Ne.symm hij) hu
        have hotherpending : u.phase.pending = true := by
          cases hu : u.phase <;> simp_all [AllocPhase.past, AllocPhase.locks, AllocPhase.pending]
        exact (h.single i j t u ht hu (by rw [hphase]; rfl) hotherpending hsame.symm).symm
    · rw [List.getElem?_set_ne hik] at hv
      exact h.single j k u v hu hv hpast hpending hsame

variable [DecidableEq Device]

theorem Guarded.step (h : s.Guarded maxSizeBytes handlers) (hstep : Step maxSizeBytes handlers cutOffs s s') :
    s'.Guarded maxSizeBytes handlers := by
  cases hstep with
  | receive hpipe => exact ⟨h.lock, h.single, h.fits, h.below, h.cap⟩
  | @ask handler descriptors immediate allocSize hhandler hsize =>
    have hold : ∀ (i : Nat) (t : Allocation Device),
        (s.allocations ++ [⟨handler, descriptors, immediate, allocSize, .arrived⟩])[i]? = .some t →
        t.phase = .arrived ∨ s.allocations[i]? = .some t := by
      intro i t ht
      rw [List.getElem?_append] at ht
      split at ht
      · exact .inr ht
      · have := List.mem_of_getElem? ht
        exact .inl (by rw [List.mem_singleton.1 this])
    refine ⟨fun i t ht hlocks => ?_, fun i j t u ht hu hpast hpending hsame => ?_, fun t ht hpending => ?_,
      fun t ht => ?_, ?_⟩
    · rcases hold i t ht with hnew | ht
      · rw [hnew] at hlocks
        cases hlocks
      · exact h.lock i t ht hlocks
    · rcases hold i t ht with hnew | ht
      · rw [hnew] at hpast
        cases hpast
      · rcases hold j u hu with hnew | hu
        · rw [hnew] at hpending
          cases hpending
        · exact h.single i j t u ht hu hpast hpending hsame
    · rcases List.mem_append.1 ht with ht | ht
      · exact h.fits t ht hpending
      · obtain rfl := List.mem_singleton.1 ht
        cases hpending
    · rcases List.mem_append.1 ht with ht | ht
      · exact h.below t ht
      · obtain rfl := List.mem_singleton.1 ht
        exact hhandler
    · simpa [sizeIn, AllocPhase.pending] using h.cap
  | @alloc i t p m ht hmove hloop =>
    have hsingle := fun j k u v hu hv => h.single_set ht hmove hloop (j := j) (k := k) (u := u) (v := v) hu hv
    have hbelow : ∀ u ∈ s.allocations.set i { t with phase := p }, u.handler < handlers := fun u hu => by
      rcases List.mem_or_eq_of_mem_set hu with hu | rfl
      · exact h.below u hu
      · exact h.below t (List.mem_of_getElem? ht)
    have hfits : ∀ u ∈ s.allocations.set i { t with phase := p }, u.phase.pending = true →
        u.allocSize ≤ maxSizeBytes := fun u hu hpending => by
      rcases List.mem_or_eq_of_mem_set hu with hu | rfl
      · exact h.fits u hu hpending
      · rcases hmove.let_through.2 hpending with hwas | ⟨-, -, hfit⟩
        · exact h.fits t (List.mem_of_getElem? ht) hwas
        · exact Nat.le_of_add_left_le hfit
    refine ⟨fun j u hu => h.lock_set ht hmove hu, hsingle, hfits, hbelow, ?_⟩
    have hset := sizeIn_set AllocPhase.pending ht p
    have hcap := h.cap
    by_cases hwas : p.pending = true → t.phase.pending = true
    · have := hmove.counted hwas
      simp only
      omega
    · -- it is let through now, and of each other process there is at most one
      obtain ⟨hpending, hwas⟩ := Classical.not_imp.1 hwas
      obtain ⟨-, rfl, hfit⟩ := (hmove.let_through.2 hpending).resolve_left hwas
      have hcount := length_pending (s := { s with allocations := s.allocations.set i { t with phase := p } }) hsingle
        hbelow
      have hi := (List.getElem?_eq_some_iff.1 ht).1
      have hnew := ((List.set_perm_cons_eraseIdx hi { t with phase := p }).filter fun u => u.phase.pending).length_eq
      have hold := ((List.getElem_cons_eraseIdx_perm hi).filter fun u : Allocation Device =>
        u.phase.pending).length_eq
      rw [(List.getElem?_eq_some_iff.1 ht).2] at hold
      simp only [List.filter_cons, hpending, if_true, List.length_cons] at hnew
      simp only [List.filter_cons, hwas, Bool.false_eq_true, if_false] at hold
      have hsum := sizeIn_le h.fits
      rw [← hold] at hsum
      simp only [hnew] at hcount
      have hmul := Nat.mul_le_mul_right maxSizeBytes hcount
      rw [Nat.add_mul, Nat.one_mul] at hmul
      simp only [hpending, hwas, if_true, Bool.false_eq_true, if_false] at hset ⊢
      omega

theorem Reachable.guarded (h : Reachable maxSizeBytes handlers cutOffs s) : s.Guarded maxSizeBytes handlers := by
  refine h.invariant ⟨?_, ?_, ?_, ?_, ?_⟩ fun _ _ => .step <;> simp [new, sizeIn]

end MemoryCache

open MemoryCache in
/-- **How much can be in the cache**: never more than its size for each
process, and that much, if every process is let through before any adds its
size. -/
theorem memory_cap [DecidableEq Device] (maxSizeBytes handlers : Nat) (cutOffs : Bool) :
    (∀ s : MemoryCache Device, Reachable maxSizeBytes handlers cutOffs s →
      s.shared.currentSizeBytes ≤ handlers * maxSizeBytes) ∧
    ∀ descriptors : List (TensorDescriptor Device), getAllocationSize descriptors = .some maxSizeBytes →
      ∃ s : MemoryCache Device, Reachable maxSizeBytes handlers cutOffs s ∧
        s.shared.currentSizeBytes = handlers * maxSizeBytes := by
  refine ⟨fun s h => ?_, fun descriptors hsize => ?_⟩
  · have := h.guarded.cap
    omega
  · obtain ⟨m, done, hreach, -, hcurrent⟩ := reachable_filled cutOffs hsize (Nat.le_refl handlers)
    exact ⟨_, hreach, hcurrent⟩

/-! ## Who sleeps -/

/-- A thread without its allocation. -/
def AllocPhase.alone : AllocPhase → Bool
  | inLoop _ asker => asker ≠ .waits
  | _ => false

section step

variable {maxSizeBytes i : Nat} {t : Allocation Device} {m m' : SharedMemory Device} {p : AllocPhase}
  (h : AllocStep maxSizeBytes false i t m p m')

include h

theorem AllocStep.not_alone (halone : t.phase.alone = false) : p.alone = false := by
  cases h with
  | cutOff hallowed => cases hallowed
  | enqueue h => cases hi : t.immediate <;> rfl
  | @tooLarge asker h | @find asker h | @expire asker h => cases asker <;> rfl
  | _ => simp_all [AllocPhase.alone]

/-- An allocation goes to sleep when there is no room, memory is given back
only where it is then announced, and the announcement is cleared only by who
holds the lock. -/
theorem AllocStep.wakes : (p = .inLoop .waiting .waits → maxSizeBytes < m'.currentSizeBytes + t.allocSize) ∧
    (m'.memoryFreedEvent = true ∨ m'.memoryFreedEvent = m.memoryFreedEvent ∧ t.phase ≠ .freed ∨
      ∃ asker, t.phase = .inLoop .woken asker) ∧
    (m.currentSizeBytes ≤ m'.currentSizeBytes ∨ p = .freed) := by
  cases h with
  | cutOff hallowed => cases hallowed
  | enqueue h => cases hi : t.immediate <;> simp [h, SharedMemory.enqueue]
  | @tooLarge asker h | @find asker h | @expire asker h => cases asker <;> simp [h, Asker.resumed]
  | _ => simp_all [SharedMemory.dequeue, SharedMemory.commit, SharedMemory.free]

end step

namespace MemoryCache

/-- Who sleeps has no room, or is about to be woken. -/
structure Awake (maxSizeBytes : Nat) (s : MemoryCache Device) : Prop where
  asked : ∀ t ∈ s.allocations, t.phase.alone = false
  full : ∀ t ∈ s.allocations, t.phase = .inLoop .waiting .waits → s.shared.memoryFreedEvent = true ∨
    (∃ u ∈ s.allocations, u.phase = .freed) ∨ maxSizeBytes < s.shared.currentSizeBytes + t.allocSize

variable [DecidableEq Device] {maxSizeBytes handlers : Nat} {s s' : MemoryCache Device}

theorem Awake.step (h : s.Awake maxSizeBytes) (hguarded : s.Guarded maxSizeBytes handlers)
    (hstep : Step maxSizeBytes handlers false s s') : s'.Awake maxSizeBytes := by
  cases hstep with
  | receive => exact ⟨h.asked, h.full⟩
  | @ask handler descriptors immediate allocSize =>
    refine ⟨fun t ht => ?_, fun t ht hphase => ?_⟩
    · rcases List.mem_append.1 ht with ht | ht
      · exact h.asked t ht
      · rw [List.mem_singleton.1 ht]
        rfl
    · rcases List.mem_append.1 ht with ht | ht
      · refine (h.full t ht hphase).imp_right (Or.imp_left fun hfreed => ?_)
        obtain ⟨u, hu, hufreed⟩ := hfreed
        exact ⟨u, List.mem_append_left _ hu, hufreed⟩
      · rw [List.mem_singleton.1 ht] at hphase
        cases hphase
  | @alloc i t p m ht hmove hloop =>
    have hmem := List.mem_of_getElem? ht
    have hi := (List.getElem?_eq_some_iff.1 ht).1
    obtain ⟨hsleeps, hevent, hgives⟩ := hmove.wakes
    have hself : { t with phase := p } ∈ s.allocations.set i { t with phase := p } := List.mem_set hi _
    refine ⟨fun u hu => ?_, fun u hu hphase => ?_⟩
    · rcases List.mem_or_eq_of_mem_set hu with hu | rfl
      · exact h.asked u hu
      · exact hmove.not_alone (h.asked t hmem)
    · obtain ⟨j, hj⟩ := List.mem_iff_getElem?.1 hu
      by_cases hij : i = j
      · subst hij
        rw [List.getElem?_set_self hi] at hj
        obtain rfl := Option.some.inj hj
        exact .inr (.inr (hsleeps hphase))
      · rw [List.getElem?_set_ne hij] at hj
        have hwoken : ∀ asker, t.phase ≠ .inLoop .woken asker := by
          -- it would have the lock, and so has `u`
          intro asker hwoken
          have halone := h.asked t hmem
          rw [hwoken] at halone
          have hlocked := hguarded.lock i t ht (by
            rw [hwoken]
            simpa [AllocPhase.alone, AllocPhase.locks] using halone)
          rw [hguarded.lock j u hj (by rw [hphase]; rfl)] at hlocked
          exact hij (Option.some.inj hlocked).symm
        rcases hevent with hset | ⟨hsame, hfreed⟩ | ⟨asker, hwas⟩
        · exact .inl hset
        · rcases h.full u (List.mem_of_getElem? hj) hphase with hset | ⟨v, hv, hvfreed⟩ | hfull
          · exact .inl (hsame.trans hset)
          · -- the one about to announce is not the one that steps
            obtain ⟨k, hk⟩ := List.mem_iff_getElem?.1 hv
            have hki : i ≠ k := by
              rintro rfl
              rw [ht] at hk
              obtain rfl := Option.some.inj hk
              exact hfreed hvfreed
            refine .inr (.inl ⟨v, ?_, hvfreed⟩)
            exact List.mem_of_getElem? ((List.getElem?_set_ne hki).trans hk)
          · rcases hgives with hle | rfl
            · refine .inr (.inr ?_)
              simp only
              omega
            · exact .inr (.inl ⟨_, hself, rfl⟩)
        · exact absurd hwas (hwoken asker)

end MemoryCache

open MemoryCache in
/-- **No wake-up is lost**, as long as no allocation times out where it waits
for memory: whenever one sleeps, its size does not fit, or memory was given
back and it will be told. -/
theorem no_lost_wakeup [DecidableEq Device] {maxSizeBytes handlers : Nat} {s : MemoryCache Device}
    (h : Reachable maxSizeBytes handlers false s) {t : Allocation Device} (ht : t ∈ s.allocations)
    (hphase : t.phase = .inLoop .waiting .waits) (hevent : s.shared.memoryFreedEvent = false)
    (hfits : s.shared.currentSizeBytes + t.allocSize ≤ maxSizeBytes) : ∃ u ∈ s.allocations, u.phase = .freed := by
  have hnew : (new : MemoryCache Device).Guarded maxSizeBytes handlers ∧ (new : MemoryCache Device).Awake maxSizeBytes :=
    ⟨Reachable.guarded (.refl : Reachable maxSizeBytes handlers false new), ⟨by simp [new], by simp [new]⟩⟩
  have hboth := h.invariant (I := fun s => s.Guarded maxSizeBytes handlers ∧ s.Awake maxSizeBytes) hnew
    fun s s' hs hstep => ⟨hs.1.step hstep, hs.2.step hs.1 hstep⟩
  rcases hboth.2.full t ht hphase with hset | hfreed | hfull
  · rw [hevent] at hset
    cases hset
  · exact hfreed
  · omega

/-- Two processes can put eight bytes into it. -/
theorem memory_cap_fourBytes : ∃ s : MemoryCache Unit, MemoryCache.Reachable 4 2 false s ∧
    s.shared.currentSizeBytes = 8 :=
  (memory_cap 4 2 false).2 fourBytes getAllocationSize_fourBytes

/-- One process has it all, the other sleeps, and the first gives it back. -/
theorem reachable_sleeping : ∃ m : SharedMemory Unit, MemoryCache.Reachable 4 2 false
    ⟨m, [wholeCache fourBytes 4 0 .freed, wholeCache fourBytes 4 1 (.inLoop .waiting .waits)], .empty⟩ ∧
      m.memoryFreedEvent = false ∧ m.currentSizeBytes = 0 := by
  have hfirst : ∀ {p p' m m'} (others : List (Allocation Unit)), (∀ u ∈ others, u.handler ≠ 0) →
      AllocStep 4 false 0 (wholeCache fourBytes 4 0 p) m p' m' →
      MemoryCache.Step 4 2 false ⟨m, wholeCache fourBytes 4 0 p :: others, .empty⟩
        ⟨m', wholeCache fourBytes 4 0 p' :: others, .empty⟩ := fun {p} _ _ _ others hothers h =>
    step_among (by simp : ∀ u ∈ ([] : List (Allocation Unit)), u.handler ≠ (wholeCache fourBytes 4 0 p).handler)
      hothers h
  have hsecond : ∀ {p p' q m m'}, AllocStep 4 false 1 (wholeCache fourBytes 4 1 p) m p' m' →
      MemoryCache.Step 4 2 false ⟨m, [wholeCache fourBytes 4 0 q, wholeCache fourBytes 4 1 p], .empty⟩
        ⟨m', [wholeCache fourBytes 4 0 q, wholeCache fourBytes 4 1 p'], .empty⟩ := fun {p _ q _ _} h =>
    step_among (by simp [wholeCache] : ∀ u ∈ [wholeCache fourBytes 4 0 q],
      u.handler ≠ (wholeCache fourBytes 4 1 p).handler) (by simp) h
  have hgranted : MemoryCache.Reachable 4 2 false
      ⟨⟨0, 0, 0, .none, false, []⟩, [wholeCache fourBytes 4 0 .granted], .empty⟩ :=
    reachable_granted getAllocationSize_fourBytes (by decide : 1 ≤ 2)
  have hheld := hgranted.tail (hfirst [] (by simp) (.commit rfl))
  have hask : ∀ m, MemoryCache.Step 4 2 false ⟨m, [wholeCache fourBytes 4 0 (.held 0)], .empty⟩
      ⟨m, [wholeCache fourBytes 4 0 (.held 0), wholeCache fourBytes 4 1 .arrived], .empty⟩ := fun m =>
    .ask (by decide) getAllocationSize_fourBytes
  have hasked := hheld.tail (hask _)
  have hline := hasked.tail (hsecond (.enqueue rfl))
  have hchecking := hline.tail (hsecond (.acquire rfl rfl))
  have hlooking := hchecking.tail (hsecond (.wait rfl (by decide) rfl))
  have hsleeping := hlooking.tail (hsecond (.sleep rfl (by decide) (by decide)))
  have hfreed := hsleeping.tail (hfirst [wholeCache fourBytes 4 1 (.inLoop .waiting .waits)] (by simp [wholeCache]) (.free rfl))
  exact ⟨_, hfreed, rfl, rfl⟩

theorem no_lost_wakeup_fourBytes : ∃ s : MemoryCache Unit, ∃ u ∈ s.allocations, u.phase = .freed := by
  obtain ⟨m, hreach, hevent, hcurrent⟩ := reachable_sleeping
  have hmem : wholeCache fourBytes 4 1 (.inLoop .waiting .waits) ∈
      [wholeCache fourBytes 4 0 .freed, wholeCache fourBytes 4 1 (.inLoop .waiting .waits)] := by simp
  exact ⟨_, no_lost_wakeup hreach hmem rfl hevent (by simp [hcurrent, wholeCache])⟩

end Petals

end Blitzwing
