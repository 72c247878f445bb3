/-
Two updates of one name at the same time.

`updateHost` reads the seven texts of a name one after the other, merges, and
sets all seven; nothing keeps a second call from doing the same in between. A
call is split where it waits (`turn`), which changes nothing of a call alone
(`updateHost_eq_drive`), and two calls take turns (`twoUpdates`). The call that
sets its texts last sets those it did not change to what it read, so the other
call's fields stay where it read them after they were set, or where they were no
change (`updates_kept_iff`), and are lost otherwise (`update_lost`).
-/
import Blitzwing.EnsRecords
import Blitzwing.Lib.Machine

namespace Blitzwing.Ens

variable {χ : Type}

/-! ## The fields of a record -/

/-- The keys of `RECORD_KEYS`. -/
inductive Field
  | hostId
  | hederaAccountId
  | blockIndices
  | layersHosted
  | model
  | role
  | status
deriving DecidableEq, Repr

/-- `Object.values(RECORD_KEYS)` -/
def Field.all : List Field := [.hostId, .hederaAccountId, .blockIndices, .layersHosted, .model, .role, .status]

def Field.key : Field → String
  | .hostId => recordKeys.hostId
  | .hederaAccountId => recordKeys.hederaAccountId
  | .blockIndices => recordKeys.blockIndices
  | .layersHosted => recordKeys.layersHosted
  | .model => recordKeys.model
  | .role => recordKeys.role
  | .status => recordKeys.status

def BlitzwingHostRecord.get (record : BlitzwingHostRecord) : Field → String
  | .hostId => record.hostId
  | .hederaAccountId => record.hederaAccountId
  | .blockIndices => record.blockIndices
  | .layersHosted => record.layersHosted
  | .model => record.model
  | .role => record.role
  | .status => record.status

/-- What a call sets a field to. -/
def UpdateBody.set (input : UpdateBody) : Field → Option String
  | .hostId => input.hostId
  | .hederaAccountId => input.hederaAccountId
  | .blockIndices => input.blockIndices
  | .layersHosted => input.layersHosted.map toString
  | .model => input.model
  | .role => input.role
  | .status => input.status

/-- How a record shows a text. -/
def Numbers.shown (numbers : Numbers) (text : Option String) : Field → String
  | .hostId | .hederaAccountId | .blockIndices | .model => (truthy text).getD ""
  | .layersHosted => numbers.text ((truthy text).getD "0")
  | .role => (truthy text).getD "contributor"
  | .status => (truthy text).getD "offline"

/-- The record that the texts are of, if they are. -/
def Numbers.record (numbers : Numbers) (texts : Field → Option String) : Option BlitzwingHostRecord :=
  match truthy (texts .hostId), truthy (texts .hederaAccountId), truthy (texts .blockIndices) with
  | .some hostId, .some hederaAccountId, .some blockIndices => .some {
      hostId, hederaAccountId, blockIndices
      layersHosted := numbers.shown (texts .layersHosted) .layersHosted
      model := numbers.shown (texts .model) .model
      role := numbers.shown (texts .role) .role
      status := numbers.shown (texts .status) .status }
  | _, _, _ => .none

theorem get_of_record {numbers : Numbers} {texts : Field → Option String} {record : BlitzwingHostRecord}
    (h : numbers.record texts = .some record) (f : Field) : record.get f = numbers.shown (texts f) f := by
  unfold Numbers.record at h
  split at h
  · next hh ha hb =>
    obtain rfl := Option.some.inj h
    cases f <;> simp [BlitzwingHostRecord.get, Numbers.shown, hh, ha, hb]
  · cases h

theorem get_merged (input : UpdateBody) (current : BlitzwingHostRecord) (f : Field) :
    (input.merged current).get f = (input.set f).getD (current.get f) := by
  cases f <;> rfl

theorem mem_texts {numbers : Numbers} {record : BlitzwingHostRecord} {texts : List (String × String)}
    (h : recordToTexts numbers record = .ok texts) (f : Field) : (f.key, record.get f) ∈ texts := by
  unfold recordToTexts at h
  obtain ⟨_, -, h⟩ := bind_eq_ok.1 h
  obtain ⟨_, -, h⟩ := bind_eq_ok.1 h
  obtain rfl := Except.ok.inj h
  cases f <;> simp [Field.key, BlitzwingHostRecord.get]

/-! ## A call, split where it waits -/

inductive Phase
  /-- The fields that are left to read, and what was read. -/
  | reading (rest : List Field) (texts : Field → Option String)
  | merging (record : BlitzwingHostRecord)
  | writing (record : BlitzwingHostRecord) (resolver : String) (texts : List (String × String))
  | saving (hostId hash : String)
  | returned (txHashes : List String)
  | raised (message : String)

def Phase.start : Phase := .reading Field.all fun _ => .none

/-- The call has set its texts. -/
def Phase.written : Phase → Bool
  | .saving _ _ | .returned _ => true
  | _ => false

def Phase.finished : Phase → Bool
  | .returned _ | .raised _ => true
  | _ => false

section

variable (ens : EnsChain χ) (config : EnsConfig)

/-- From one wait to the next; looking for the resolver is one turn, with all it waits for. -/
def turn (input : UpdateBody) : Phase → EnsM χ Phase
  | .reading (f :: rest) texts => do
    let text ← onChain (ens.getTextRecord input.ensName f.key)
    return .reading rest (Function.update texts f text)
  | .reading [] texts =>
    match config.numbers.record texts with
    | .none =>
      let ensName := input.ensName
      throw s!"Cannot update unknown ENS name: {ensName}"
    | .some current => do
      let record := input.merged current
      requireOperatorKey config
      return .merging record
  | .merging record => do
    let resolver ← ensureOperatorResolver ens config
    let texts ← ofExcept (recordToTexts config.numbers record)
    return .writing record resolver texts
  | .writing record resolver texts => do
    let hash ← onChain (ens.setRecords input.ensName resolver texts)
    return .saving record.hostId hash
  | .saving hostId hash => do
    saveHostMapping hostId input.ensName
    return .returned [hash]
  | .returned txHashes => return .returned txHashes
  | .raised message => throw message

/-- A call alone. -/
def drive (input : UpdateBody) : ℕ → Phase → EnsM χ Phase
  | 0, phase => return phase
  | n + 1, phase => do
    let phase ← turn ens config input phase
    drive input n phase

/-- Seven reads, the merge, the resolver, the write and the mapping. -/
def turns : ℕ := 11

theorem drive_merging (input : UpdateBody) (record : BlitzwingHostRecord) :
    drive ens config input 3 (.merging record) = Phase.returned <$> do
      let resolver ← ensureOperatorResolver ens config
      let texts ← ofExcept (recordToTexts config.numbers record)
      let hash ← onChain (ens.setRecords input.ensName resolver texts)
      saveHostMapping record.hostId input.ensName
      return [hash] := by
  simp only [drive, turn, bind_assoc, pure_bind, map_bind, map_pure]

/-- **A call that nothing comes between** is `updateHost`. -/
theorem updateHost_eq_drive (input : UpdateBody) :
    drive ens config input turns .start = Phase.returned <$> updateHost ens config input := by
  simp only [turns, Phase.start, Field.all, drive.eq_2 ens config input, turn.eq_1, updateHost, resolveHostRecord,
    bind_assoc, pure_bind, map_bind]
  refine bind_congr fun hostId => bind_congr fun hedera => bind_congr fun blocks => bind_congr fun layers =>
    bind_congr fun model => bind_congr fun role => bind_congr fun status => ?_
  simp only [turn.eq_2, Numbers.record, Numbers.shown, Function.update_self, Function.update_of_ne, ne_eq, reduceCtorEq,
    not_false_eq_true]
  rcases truthy hostId with _ | hostId
  · rfl
  rcases truthy hedera with _ | hedera
  · rfl
  rcases truthy blocks with _ | blocks
  · rfl
  simp only [bind_assoc, pure_bind, map_bind]
  refine bind_congr fun _ => ?_
  refine Eq.trans (drive_merging ens config input _) ?_
  simp only [map_bind]
  rfl

/-! ## Two calls -/

structure Both (χ : Type) where
  world : EnsWorld χ
  phase : Bool → Phase
  /-- Not in the code: the call that set its texts first. -/
  first : Option Bool
  /-- Not in the code: what each call read after the other had set its texts. -/
  late : Bool → List Field

def Both.start (w : EnsWorld χ) : Both χ := ⟨w, fun _ => .start, .none, fun _ => []⟩

/-- The field that a call reads next. -/
def Phase.next : Phase → Option Field
  | .reading (f :: _) _ => .some f
  | _ => .none

/-- What is noted of the turn of a call. -/
def Both.noted (c : Both χ) (i : Bool) (world : EnsWorld χ) (phase : Phase) : Both χ where
  world
  phase := Function.update c.phase i phase
  first := c.first.or (if phase.written then .some i else .none)
  late := Function.update c.late i ((if (c.phase !i).written then (c.phase i).next.toList else []) ++ c.late i)

def Both.turn (inputs : Bool → UpdateBody) (c : Both χ) (i : Bool) : Option (Both χ) :=
  if (c.phase i).finished then .none
  else match Ens.turn ens config (inputs i) (c.phase i) c.world with
    | .ok phase world => .some (c.noted i world phase)
    | .error message world => .some (c.noted i world (.raised message))

/-- The calls of `inputs`, in any order of their turns. -/
def twoUpdates (inputs : Bool → UpdateBody) : Machine (Both χ) Bool where
  step := Both.turn ens config inputs

end

/-! ## What a turn does -/

variable {ens : EnsChain χ} {config : EnsConfig} {resolves : χ → String → String → Option String} {name : String}

/-- The name resolves afterwards as before. -/
abbrev Untouched {α : Type} (resolves : χ → String → String → Option String) (name : String)
    (x : EStateM String χ α) : Prop :=
  ∀ texts, Ensures (fun c => resolves c name = texts) (fun _ _ => True) (fun _ c => resolves c name = texts) x

/-- A name keeps the texts it is given, whatever becomes of the parent. -/
structure KeepsTexts (ens : EnsChain χ) (resolves : χ → String → String → Option String) (name : String) : Prop where
  getTextRecord : ∀ key texts, Ensures (fun c => resolves c name = texts) (fun _ _ => True)
    (fun v c => v = texts key ∧ resolves c name = texts) (ens.getTextRecord name key)
  getResolver : ∀ name', Untouched resolves name (ens.getResolver name')
  deployResolver : Untouched resolves name ens.deployResolver
  grantResolverRoles : ∀ resolver, Untouched resolves name (ens.grantResolverRoles resolver)
  setResolver : ∀ label resolver, Untouched resolves name (ens.setResolver label resolver)
  setRecords : ∀ resolver texts, (texts.map Prod.fst).Nodup →
    Leaving (fun _ c => ∀ key v, (key, v) ∈ texts → resolves c name key = .some v) (ens.setRecords name resolver texts)

/-- What a name resolves to, field by field. -/
def EnsWorld.texts (resolves : χ → String → String → Option String) (name : String) (w : EnsWorld χ) (f : Field) :
    Option String :=
  resolves w.chain name f.key

theorem ensures_ensureOperatorResolver (hkeeps : KeepsTexts ens resolves name) (texts : String → Option String) :
    Ensures (fun w => resolves w.chain name = texts) (fun _ _ => True) (fun _ w => resolves w.chain name = texts)
      (ensureOperatorResolver ens config) := by
  have hsave : ∀ payload, Ensures (fun w => resolves w.chain name = texts) (fun _ _ => True)
      (fun _ w => resolves w.chain name = texts) (saveParentBootstrap payload : EnsM χ Unit) :=
    fun payload => Ensures.modify fun _ hw => ⟨trivial, hw⟩
  have hret : ∀ resolver, Ensures (fun w => resolves w.chain name = texts) (fun _ _ => True)
      (fun _ w => resolves w.chain name = texts) (pure resolver : EnsM χ String) :=
    fun resolver => Ensures.ret (fun _ => trivial) fun _ hw => hw
  have hinstall : ∀ parent, Ensures (fun w => resolves w.chain name = texts) (fun _ _ => True)
      (fun _ w => resolves w.chain name = texts) (ensureOperatorResolver.install ens config parent) := by
    intro parent
    unfold ensureOperatorResolver.install requireOperatorKey
    refine Ensures.bind (J := fun _ w => resolves w.chain name = texts) (fun _ _ => trivial) ?_ fun _ => ?_
    · split
      · exact Ensures.throw (fun _ => trivial) _
      · exact Ensures.ret (fun _ => trivial) fun _ hw => hw
    refine Ensures.bind (fun _ _ => trivial) (ensures_chain (hkeeps.deployResolver texts)) fun resolver => ?_
    refine Ensures.bind (fun _ _ => trivial) (ensures_chain (hkeeps.grantResolverRoles resolver texts)) fun _ => ?_
    refine Ensures.bind (fun _ _ => trivial) (ensures_chain (hkeeps.setResolver _ resolver texts)) fun _ => ?_
    exact Ensures.bind (fun _ _ => trivial) (hsave _) fun _ => hret resolver
  unfold ensureOperatorResolver
  refine Ensures.bind (J := fun _ w => resolves w.chain name = texts) (fun _ _ => trivial)
    (Ensures.get (fun _ => trivial) fun _ hw => hw) fun w => ?_
  simp only
  cases truthy (w.parent.bind (·.resolverAddress)) with
  | some resolver => exact hret resolver
  | none =>
    refine Ensures.bind (fun _ _ => trivial) (ensures_chain (hkeeps.getResolver _ texts)) fun existing => ?_
    cases truthy existing with
    | none => exact hinstall _
    | some existing =>
      simp only
      split
      · exact Ensures.bind (fun _ _ => trivial) (hsave _) fun _ => hret existing
      · exact hinstall _

/-- What a call has read and made of it, where `texts` is what its reads found. -/
def Knows (numbers : Numbers) (input : UpdateBody) (texts : Field → Option String) : Phase → Prop
  | .reading rest read => ∀ f ∉ rest, read f = texts f
  | .merging record => ∃ current, numbers.record texts = .some current ∧ record = input.merged current
  | .writing record _ written => (∃ current, numbers.record texts = .some current ∧ record = input.merged current) ∧
    recordToTexts numbers record = .ok written
  | _ => True

theorem knows_start (numbers : Numbers) (input : UpdateBody) (texts : Field → Option String) :
    Knows numbers input texts .start := by
  intro f hf
  exact absurd (by cases f <;> decide) hf

/-- A call whose reads found `read` has left `texts`. -/
def Wrote (numbers : Numbers) (input : UpdateBody) (read texts : Field → Option String) : Prop :=
  ∃ current, numbers.record read = .some current ∧ ∀ f, texts f = .some ((input.merged current).get f)

section

variable (hkeeps : KeepsTexts ens resolves name) {input : UpdateBody} (hname : input.ensName = name) {phase : Phase}
  {w w' : EnsWorld χ}

include hkeeps hname in
theorem turn_read {f : Field} {rest : List Field} {read : Field → Option String}
    (h : turn ens config input (.reading (f :: rest) read) w = .ok phase w') :
    phase = .reading rest (Function.update read f (w.texts resolves name f)) ∧
      w'.texts resolves name = w.texts resolves name := by
  subst hname
  have hturn : Ensures (fun v => resolves v.chain input.ensName = resolves w.chain input.ensName) (fun _ _ => True)
      (fun p v => p = .reading rest (Function.update read f (w.texts resolves input.ensName f)) ∧
        resolves v.chain input.ensName = resolves w.chain input.ensName)
      (turn ens config input (.reading (f :: rest) read)) := by
    refine Ensures.bind (fun _ _ => trivial) (ensures_chain (hkeeps.getTextRecord f.key _)) fun text => ?_
    exact Ensures.ret (fun _ => trivial) fun v hv => ⟨by rw [hv.1]; rfl, hv.2⟩
  obtain ⟨-, hphase, hsame⟩ := Ensures.ok hturn rfl h
  exact ⟨hphase, funext fun f => congrFun hsame f.key⟩

theorem turn_merge {read : Field → Option String}
    (h : turn ens config input (.reading [] read) w = .ok phase w') :
    w' = w ∧ ∃ current, config.numbers.record read = .some current ∧ phase = .merging (input.merged current) := by
  simp only [turn] at h
  cases hr : config.numbers.record read with
  | none =>
    rw [hr] at h
    cases h
  | some current =>
    simp only [hr] at h
    unfold requireOperatorKey at h
    split at h
    · cases h
    · obtain ⟨rfl, rfl⟩ := EStateM.Result.ok.inj h
      exact ⟨rfl, current, rfl, rfl⟩

include hkeeps in
theorem turn_resolver {record : BlitzwingHostRecord} (h : turn ens config input (.merging record) w = .ok phase w') :
    w'.texts resolves name = w.texts resolves name ∧ ∃ resolver texts,
      recordToTexts config.numbers record = .ok texts ∧ phase = .writing record resolver texts := by
  simp only [turn, bind_apply] at h
  cases hr : ensureOperatorResolver ens config w with
  | error e v =>
    rw [hr] at h
    cases h
  | ok resolver v =>
    obtain ⟨-, hsame⟩ := Ensures.ok (ensures_ensureOperatorResolver hkeeps (resolves w.chain name)) rfl hr
    rw [hr] at h
    cases ht : recordToTexts config.numbers record with
    | error e =>
      rw [ht] at h
      cases h
    | ok texts =>
      rw [ht] at h
      obtain ⟨rfl, rfl⟩ := EStateM.Result.ok.inj h
      exact ⟨funext fun f => congrFun hsame f.key, resolver, texts, rfl, rfl⟩

include hkeeps hname in
theorem turn_write {record : BlitzwingHostRecord} {resolver : String} {texts : List (String × String)}
    (htexts : recordToTexts config.numbers record = .ok texts)
    (h : turn ens config input (.writing record resolver texts) w = .ok phase w') :
    (∃ hash, phase = .saving record.hostId hash) ∧ ∀ f, w'.texts resolves name f = .some (record.get f) := by
  subst hname
  have hturn : Leaving (fun p v => (∃ hash, p = .saving record.hostId hash) ∧
      ∀ f, v.texts resolves input.ensName f = .some (record.get f))
      (turn ens config input (.writing record resolver texts)) := by
    refine Ensures.bind (fun _ _ => trivial)
      (ensures_chain (hkeeps.setRecords resolver texts (mem_of_recordToTexts htexts).1)) fun hash => ?_
    exact Ensures.ret (fun _ => trivial) fun v hv => ⟨⟨hash, rfl⟩, fun f => hv _ _ (mem_texts htexts f)⟩
  exact (Ensures.ok hturn trivial h).2

theorem turn_save {hostId hash : String} (h : turn ens config input (.saving hostId hash) w = .ok phase w') :
    phase = .returned [hash] ∧ w'.chain = w.chain := by
  obtain ⟨rfl, rfl⟩ := EStateM.Result.ok.inj h
  exact ⟨rfl, rfl⟩

include hkeeps hname in
/-- A turn before the write, the write, or a turn after it. -/
theorem turn_cases {phase' : Phase} {read : Field → Option String} (hfinished : phase.finished = false)
    (hknows : Knows config.numbers input read phase) (h : turn ens config input phase w = .ok phase' w') :
    (phase.written = false ∧ phase'.written = false ∧ phase'.finished = false ∧
        w'.texts resolves name = w.texts resolves name ∧ ∀ read',
          (∀ f, read' f = if phase.next = .some f then w.texts resolves name f else read f) →
            Knows config.numbers input read' phase') ∨
      (phase.written = false ∧ phase.next = .none ∧ phase'.written = true ∧
        Wrote config.numbers input read (w'.texts resolves name)) ∨
      (phase.written = true ∧ phase'.written = true ∧ w'.texts resolves name = w.texts resolves name) := by
  have hall : ∀ {read' : Field → Option String}, (∀ f, read' f = if phase.next = .some f then w.texts resolves name f
      else read f) → phase.next = .none → read' = read := by
    intro read' hread hnext
    funext f
    rw [hread f, hnext]
    rfl
  cases phase with
  | reading rest texts =>
    cases rest with
    | nil =>
      obtain ⟨rfl, current, hrecord, rfl⟩ := turn_merge h
      refine .inl ⟨rfl, rfl, rfl, rfl, fun read' hread => ⟨current, ?_, rfl⟩⟩
      have htexts : texts = read := funext fun f => hknows f (by simp)
      rwa [hall hread rfl, ← htexts]
    | cons f rest =>
      obtain ⟨rfl, hsame⟩ := turn_read hkeeps hname h
      refine .inl ⟨rfl, rfl, rfl, hsame, fun read' hread g hg => ?_⟩
      rw [hread g]
      by_cases hgf : g = f
      · subst hgf
        simp [Phase.next]
      · have hne : ¬ (Phase.reading (f :: rest) texts).next = .some g := by simpa [Phase.next] using Ne.symm hgf
        rw [Function.update_of_ne hgf, hknows g (by simp [hgf, hg]), if_neg hne]
  | merging record =>
    obtain ⟨hsame, resolver, texts, htexts, rfl⟩ := turn_resolver hkeeps h
    exact .inl ⟨rfl, rfl, rfl, hsame, fun read' hread => ⟨hall hread rfl ▸ hknows, htexts⟩⟩
  | writing record resolver texts =>
    obtain ⟨⟨current, hrecord, rfl⟩, htexts⟩ := hknows
    obtain ⟨⟨hash, rfl⟩, hwritten⟩ := turn_write hkeeps hname htexts h
    exact .inr (.inl ⟨rfl, rfl, rfl, current, hrecord, hwritten⟩)
  | saving hostId hash =>
    obtain ⟨rfl, hchain⟩ := turn_save h
    exact .inr (.inr ⟨rfl, rfl, funext fun f => by rw [EnsWorld.texts, hchain]; rfl⟩)
  | returned txHashes => cases hfinished
  | raised message => cases hfinished

end

/-! ## Runs of two calls -/

/-- What the reads of a call found: the texts of the other call where they came
after its write, else those of the beginning. -/
def Both.found (c : Both χ) (i : Bool) (old other : Field → Option String) (f : Field) : Option String :=
  if f ∈ c.late i then other f else old f

section

variable (numbers : Numbers) (inputs : Bool → UpdateBody) (resolves : χ → String → String → Option String) (name : String)
  (old : Field → Option String)

/-- Neither call has set its texts. -/
structure Begun (c : Both χ) : Prop where
  first : c.first = .none
  texts : c.world.texts resolves name = old
  unwritten : ∀ i, (c.phase i).written = false
  early : ∀ i, c.late i = []
  knows : ∀ i, Knows numbers (inputs i) old (c.phase i)

/-- Call `a` has set its texts, which are `new`. -/
structure Led (a : Bool) (new : Field → Option String) (c : Both χ) : Prop where
  first : c.first = .some a
  written : (c.phase a).written = true
  wrote : Wrote numbers (inputs a) old new
  texts : c.world.texts resolves name = new
  unwritten : (c.phase !a).written = false
  knows : Knows numbers (inputs !a) (c.found (!a) old new) (c.phase !a)

/-- Call `a` has set its texts, which were `new`, and then the other call. -/
structure Ended (a : Bool) (new : Field → Option String) (c : Both χ) : Prop where
  first : c.first = .some a
  written : ∀ i, (c.phase i).written = true
  wrote : Wrote numbers (inputs a) old new
  last : Wrote numbers (inputs !a) (c.found (!a) old new) (c.world.texts resolves name)

/-- Where two calls can be. -/
inductive Progress (c : Both χ) : Prop
  | raised (i : Bool) (message : String) : c.phase i = .raised message → Progress c
  | begun : Begun numbers inputs resolves name old c → Progress c
  | led (a : Bool) (new : Field → Option String) : Led numbers inputs resolves name old a new c → Progress c
  | ended (a : Bool) (new : Field → Option String) : Ended numbers inputs resolves name old a new c → Progress c

end

variable {inputs : Bool → UpdateBody} {old new : Field → Option String} {c c' : Both χ}

/-- The turn of a call that does not raise. -/
structure Turned (ens : EnsChain χ) (config : EnsConfig) (inputs : Bool → UpdateBody) (c : Both χ) (i : Bool)
    (phase : Phase) (world : EnsWorld χ) : Prop where
  unfinished : (c.phase i).finished = false
  turn : Ens.turn ens config (inputs i) (c.phase i) c.world = .ok phase world

theorem Both.turn_cases {i : Bool} (h : c.turn ens config inputs i = .some c') :
    (∃ phase world, Turned ens config inputs c i phase world ∧ c' = c.noted i world phase) ∨
      ∃ message, c'.phase i = .raised message := by
  unfold Both.turn at h
  split at h
  · cases h
  · next hf =>
    rw [Bool.not_eq_true] at hf
    cases ht : Ens.turn ens config (inputs i) (c.phase i) c.world with
    | ok phase world =>
      rw [ht] at h
      exact .inl ⟨phase, world, ⟨hf, ht⟩, (Option.some.inj h).symm⟩
    | error message world =>
      rw [ht] at h
      obtain rfl := Option.some.inj h
      exact .inr ⟨message, by simp [Both.noted]⟩

section

variable (hkeeps : KeepsTexts ens resolves name) (hname : ∀ i, (inputs i).ensName = name)
include hkeeps hname

theorem Begun.turn {i : Bool} {phase : Phase} {world : EnsWorld χ}
    (hb : Begun config.numbers inputs resolves name old c) (ht : Turned ens config inputs c i phase world) :
    Progress config.numbers inputs resolves name old (c.noted i world phase) := by
  have hother : (c.phase !i).written = false := hb.unwritten _
  obtain ⟨-, hphase, -, hsame, hknows⟩ | ⟨-, -, hphase, hwrote⟩ | ⟨hwritten, -⟩ :=
    Ens.turn_cases hkeeps (hname i) ht.unfinished (hb.knows i) ht.turn
  · refine .begun ⟨?_, hsame.trans hb.texts, ?_, ?_, ?_⟩
    · simp [Both.noted, hb.first, hphase]
    · intro j
      by_cases hj : j = i
      · subst hj
        simpa [Both.noted] using hphase
      · simpa [Both.noted, hj] using hb.unwritten j
    · intro j
      by_cases hj : j = i
      · subst hj
        simp [Both.noted, hother, hb.early]
      · simp [Both.noted, hj, hb.early]
    · intro j
      by_cases hj : j = i
      · subst hj
        simp only [Both.noted, Function.update_self]
        exact hknows old fun f => by rw [hb.texts, ite_self]
      · simpa [Both.noted, hj] using hb.knows j
  · refine .led i (world.texts resolves name) ⟨?_, ?_, hwrote, rfl, ?_, ?_⟩
    · simp [Both.noted, hb.first, hphase]
    · simpa [Both.noted] using hphase
    · simpa [Both.noted] using hother
    · have hfound : (c.noted i world phase).found (!i) old (world.texts resolves name) = old := by
        funext f
        simp [Both.found, Both.noted, hb.early]
      rw [hfound]
      simpa [Both.noted] using hb.knows !i
  · rw [hb.unwritten i] at hwritten
    cases hwritten

omit hkeeps hname in
theorem knows_of_written {input : UpdateBody} {numbers : Numbers} (read : Field → Option String) {phase : Phase}
    (h : phase.written = true) : Knows numbers input read phase := by
  cases phase with
  | saving hostId hash => trivial
  | returned txHashes => trivial
  | _ => cases h

omit hkeeps hname in
/-- What is read once the other call has set its texts. -/
theorem found_noted {a : Bool} (hwritten : (c.phase a).written = true) (phase : Phase) (world : EnsWorld χ) (f : Field) :
    (c.noted (!a) world phase).found (!a) old new f =
      if (c.phase !a).next = .some f then new f else c.found (!a) old new f := by
  simp only [Both.found, Both.noted, Function.update_self, Bool.not_not, hwritten, if_true]
  cases (c.phase !a).next with
  | none => by_cases hf : f ∈ c.late !a <;> simp [hf]
  | some g =>
    by_cases hg : g = f
    · simp [hg]
    · simp [hg, Ne.symm hg]

theorem Led.turn {a i : Bool} {phase : Phase} {world : EnsWorld χ}
    (hl : Led config.numbers inputs resolves name old a new c) (ht : Turned ens config inputs c i phase world) :
    Progress config.numbers inputs resolves name old (c.noted i world phase) := by
  have hfirst : (c.noted i world phase).first = .some a := by simp [Both.noted, hl.first]
  obtain rfl | rfl : i = a ∨ i = !a := by cases i <;> cases a <;> simp
  · obtain ⟨hunwritten, -⟩ | ⟨hunwritten, -⟩ | ⟨-, hphase, hsame⟩ :=
      Ens.turn_cases hkeeps (hname i) ht.unfinished (knows_of_written old hl.written) ht.turn
    · rw [hl.written] at hunwritten
      cases hunwritten
    · rw [hl.written] at hunwritten
      cases hunwritten
    · refine .led i new ⟨hfirst, ?_, hl.wrote, hsame.trans hl.texts, ?_, ?_⟩
      · simpa [Both.noted] using hphase
      · simpa [Both.noted] using hl.unwritten
      · have hfound : (c.noted i world phase).found (!i) old new = c.found (!i) old new := by
          funext f
          simp [Both.found, Both.noted]
        rw [hfound]
        simpa [Both.noted] using hl.knows
  · obtain ⟨-, hphase, -, hsame, hknows⟩ | ⟨-, hnext, hphase, hwrote⟩ | ⟨hwritten, -⟩ :=
      Ens.turn_cases hkeeps (hname !a) ht.unfinished hl.knows ht.turn
    · refine .led a new ⟨hfirst, ?_, hl.wrote, hsame.trans hl.texts, ?_, ?_⟩
      · simpa [Both.noted] using hl.written
      · simpa [Both.noted] using hphase
      · have hnew := hknows _ fun f => (found_noted hl.written phase world f).trans (by rw [hl.texts])
        simpa [Both.noted] using hnew
    · refine .ended a new ⟨hfirst, ?_, hl.wrote, ?_⟩
      · intro j
        obtain rfl | rfl : j = a ∨ j = !a := by cases j <;> cases a <;> simp
        · simpa [Both.noted] using hl.written
        · simpa [Both.noted] using hphase
      · have hfound : (c.noted (!a) world phase).found (!a) old new = c.found (!a) old new := by
          funext f
          rw [found_noted hl.written, hnext]
          rfl
        rw [hfound]
        exact hwrote
    · rw [hl.unwritten] at hwritten
      cases hwritten

theorem Ended.turn {a i : Bool} {phase : Phase} {world : EnsWorld χ}
    (he : Ended config.numbers inputs resolves name old a new c) (ht : Turned ens config inputs c i phase world) :
    Progress config.numbers inputs resolves name old (c.noted i world phase) := by
  obtain ⟨hunwritten, -⟩ | ⟨hunwritten, -⟩ | ⟨-, hphase, hsame⟩ :=
    Ens.turn_cases hkeeps (hname i) ht.unfinished (knows_of_written old (he.written i)) ht.turn
  · rw [he.written] at hunwritten
    cases hunwritten
  · rw [he.written] at hunwritten
    cases hunwritten
  · have hnext : (c.phase i).next = .none := by
      have hwritten := he.written i
      cases hp : c.phase i <;> first | rfl | simp [hp, Phase.written] at hwritten
    have hlate : (c.noted i world phase).late = c.late := by
      simp [Both.noted, hnext]
    refine .ended a new ⟨by simp [Both.noted, he.first], ?_, he.wrote, ?_⟩
    · intro j
      by_cases hj : j = i
      · subst hj
        simpa [Both.noted] using hphase
      · simpa [Both.noted, hj] using he.written j
    · have hfound : (c.noted i world phase).found (!a) old new = c.found (!a) old new := by
        funext f
        rw [Both.found, Both.found, hlate]
      rw [hfound]
      exact hsame ▸ he.last

/-- Whoever's turn it is. -/
theorem Progress.turn {i : Bool} (hp : Progress config.numbers inputs resolves name old c)
    (h : c.turn ens config inputs i = .some c') : Progress config.numbers inputs resolves name old c' := by
  obtain ⟨phase, world, ht, rfl⟩ | ⟨message, hraised⟩ := Both.turn_cases h
  · cases hp with
    | raised j message hj =>
      have hne : j ≠ i := by
        intro he
        subst he
        have hunfinished := ht.unfinished
        rw [hj] at hunfinished
        cases hunfinished
      exact .raised j message (by simpa [Both.noted, hne] using hj)
    | begun hb => exact hb.turn hkeeps hname ht
    | led a new hl => exact hl.turn hkeeps hname ht
    | ended a new he => exact he.turn hkeeps hname ht
  · exact .raised i message hraised

theorem progress_of_reaches {w : EnsWorld χ}
    (h : (twoUpdates ens config inputs).Reaches (fun _ _ => True) (Both.start w) c) :
    Progress config.numbers inputs resolves name (w.texts resolves name) c := by
  refine h.invariant (I := Progress config.numbers inputs resolves name (w.texts resolves name)) ?_ ?_
  · exact .begun ⟨rfl, rfl, fun _ => rfl, fun _ => rfl, fun i => knows_start config.numbers (inputs i) _⟩
  · intro c i c' hp _ hstep
    exact hp.turn hkeeps hname hstep

end

/-! ## What is kept -/

/-- A number that JavaScript printed reads as itself. -/
structure Numbers.Prints (numbers : Numbers) : Prop where
  ne_empty : ∀ s, s ≠ "" → numbers.text s ≠ ""
  again : ∀ s, numbers.text (numbers.text s) = numbers.text s

theorem Numbers.Prints.shown_shown {numbers : Numbers} (hn : numbers.Prints) (text : Option String) (f : Field) :
    numbers.shown (.some (numbers.shown text f)) f = numbers.shown text f := by
  have hgetD : ∀ d : String, (truthy (.some ((truthy text).getD d))).getD d = (truthy text).getD d := by
    intro d
    cases ht : truthy text with
    | some s => simp [truthy_of_ne (truthy_ne_empty ht)]
    | none =>
      by_cases hd : d = ""
      · subst hd
        rfl
      · simp [truthy_of_ne hd]
  cases f with
  | layersHosted =>
    have hne : (truthy text).getD "0" ≠ "" := by
      cases ht : truthy text with
      | some s => simpa using truthy_ne_empty ht
      | none => simp
    simp only [Numbers.shown]
    rw [truthy_of_ne (hn.ne_empty _ hne), Option.getD_some, hn.again]
  | hostId => exact hgetD ""
  | hederaAccountId => exact hgetD ""
  | blockIndices => exact hgetD ""
  | model => exact hgetD ""
  | role => exact hgetD "contributor"
  | status => exact hgetD "offline"

theorem Wrote.text_eq {numbers : Numbers} {input : UpdateBody} {read texts : Field → Option String}
    (h : Wrote numbers input read texts) (f : Field) :
    texts f = .some ((input.set f).getD (numbers.shown (read f) f)) := by
  obtain ⟨current, hrecord, htexts⟩ := h
  rw [htexts f, get_merged, get_of_record hrecord]

/-- What a name shows of a field after a call, by what it set and what it read. -/
theorem Wrote.shown_eq {numbers : Numbers} (hn : numbers.Prints) {input : UpdateBody} {read texts : Field → Option String}
    (h : Wrote numbers input read texts) (f : Field) :
    numbers.shown (texts f) f = numbers.shown ((input.set f).or (read f)) f := by
  rw [h.text_eq f]
  cases input.set f with
  | some v => rfl
  | none => exact hn.shown_shown (read f) f

section

variable (hkeeps : KeepsTexts ens resolves name) {input : UpdateBody} (hname : input.ensName = name)
  {w w' : EnsWorld χ} {phase phase' : Phase}

/-- After the write of a call that is alone. -/
theorem drive_written {n : ℕ} (hwritten : phase.written = true)
    (h : drive ens config input n phase w = .ok phase' w') : w'.texts resolves name = w.texts resolves name := by
  induction n generalizing phase w with
  | zero =>
    obtain ⟨-, rfl⟩ := EStateM.Result.ok.inj h
    rfl
  | succ n ih =>
    rw [drive, bind_apply] at h
    cases ht : Ens.turn ens config input phase w with
    | error e v =>
      rw [ht] at h
      cases h
    | ok p v =>
      rw [ht] at h
      cases phase with
      | saving hostId hash =>
        obtain ⟨rfl, hchain⟩ := turn_save ht
        rw [ih rfl h]
        exact funext fun f => by rw [EnsWorld.texts, hchain]; rfl
      | returned txHashes =>
        obtain ⟨rfl, rfl⟩ := EStateM.Result.ok.inj ht
        exact ih rfl h
      | _ => cases hwritten

include hkeeps hname

theorem drive_wrote {n : ℕ} (hunwritten : phase.written = false) (hfinished : phase.finished = false)
    (hknows : Knows config.numbers input (w.texts resolves name) phase)
    (h : drive ens config input n phase w = .ok phase' w') (hwritten : phase'.written = true) :
    Wrote config.numbers input (w.texts resolves name) (w'.texts resolves name) := by
  induction n generalizing phase w with
  | zero =>
    obtain ⟨rfl, -⟩ := EStateM.Result.ok.inj h
    rw [hunwritten] at hwritten
    cases hwritten
  | succ n ih =>
    rw [drive, bind_apply] at h
    cases ht : Ens.turn ens config input phase w with
    | error e v =>
      rw [ht] at h
      cases h
    | ok p v =>
      rw [ht] at h
      obtain ⟨-, hp, hpf, hsame, hnext⟩ | ⟨-, -, hp, hwrote⟩ | ⟨hw, -⟩ := turn_cases hkeeps hname hfinished hknows ht
      · rw [← hsame]
        refine ih hp hpf (hnext _ fun f => ?_) h
        rw [hsame, ite_self]
      · rw [drive_written hp h]
        exact hwrote
      · rw [hunwritten] at hw
        cases hw

/-- A call that nothing comes between writes over what it finds. -/
theorem updateHost_wrote {txHashes : List String} (h : updateHost ens config input w = .ok txHashes w') :
    Wrote config.numbers input (w.texts resolves name) (w'.texts resolves name) := by
  have hdrive : drive ens config input turns .start w = .ok (.returned txHashes) w' := by
    rw [updateHost_eq_drive, map_eq_pure_bind, bind_apply, h]
    rfl
  exact drive_wrote hkeeps hname rfl rfl (knows_start config.numbers input _) hdrive rfl

end

/-- The record shows what both calls set. -/
def Kept (numbers : Numbers) (resolves : χ → String → String → Option String) (name : String)
    (inputs : Bool → UpdateBody) (w : EnsWorld χ) : Prop :=
  ∀ i f v, (inputs i).set f = .some v → numbers.shown (w.texts resolves name f) f = numbers.shown (.some v) f

theorem set_eq_none (hdisjoint : ∀ f, (inputs false).set f = .none ∨ (inputs true).set f = .none) {i : Bool} {f : Field}
    {v : String} (h : (inputs i).set f = .some v) : (inputs !i).set f = .none := by
  cases i with
  | false => exact (hdisjoint f).resolve_left (by simp [h])
  | true => exact (hdisjoint f).resolve_right (by simp [h])

section

variable {numbers : Numbers} (hn : numbers.Prints)
  (hdisjoint : ∀ f, (inputs false).set f = .none ∨ (inputs true).set f = .none)
include hn hdisjoint

theorem Ended.kept_iff {a : Bool} (he : Ended numbers inputs resolves name old a new c) :
    Kept numbers resolves name inputs c.world ↔ ∀ f v, (inputs a).set f = .some v →
      f ∈ c.late (!a) ∨ numbers.shown (old f) f = numbers.shown (.some v) f := by
  have hother : ∀ f v, (inputs a).set f = .some v →
      numbers.shown (c.world.texts resolves name f) f = numbers.shown (c.found (!a) old new f) f := by
    intro f v hv
    rw [he.last.shown_eq hn, set_eq_none hdisjoint hv, Option.none_or]
  constructor
  · intro hkept f v hv
    by_cases hlate : f ∈ c.late !a
    · exact .inl hlate
    · right
      have hshown := hkept a f v hv
      rw [hother f v hv, Both.found, if_neg hlate] at hshown
      exact hshown
  · intro hread i f v hv
    obtain rfl | rfl : i = a ∨ i = !a := by cases i <;> cases a <;> simp
    · rw [hother f v hv, Both.found]
      split
      · rw [he.wrote.shown_eq hn, hv, Option.some_or]
      · next hearly => exact (hread f v hv).resolve_left hearly
    · rw [he.last.shown_eq hn, hv, Option.some_or]

omit hdisjoint in
/-- A record that shows what both set is the record of one call after the other. -/
theorem Ended.shown_eq {a : Bool} (he : Ended numbers inputs resolves name old a new c)
    (hkept : Kept numbers resolves name inputs c.world) {i : Bool} {middle last : Field → Option String}
    (hfirst : Wrote numbers (inputs i) old middle) (hlast : Wrote numbers (inputs !i) middle last) (f : Field) :
    numbers.shown (c.world.texts resolves name f) f = numbers.shown (last f) f := by
  rw [hlast.shown_eq hn]
  cases hl : (inputs !i).set f with
  | some v => exact hkept _ f v hl
  | none =>
    rw [Option.none_or, hfirst.shown_eq hn]
    cases hf : (inputs i).set f with
    | some v => exact hkept _ f v hf
    | none =>
      have hunset : ∀ j, (inputs j).set f = .none := by
        intro j
        obtain rfl | rfl : j = i ∨ j = !i := by cases j <;> cases i <;> simp
        · exact hf
        · exact hl
      rw [he.last.shown_eq hn, hunset, Option.none_or, Option.none_or, Both.found]
      split
      · rw [he.wrote.shown_eq hn, hunset, Option.none_or]
      · rfl

end

/-- **When two updates are both kept.** Two calls on one name that set different
fields, in any order of their turns, leave a record with what both set exactly
where, of each field that the first to write set, the other call read the text
after that write or the name showed the same before; and then it is the record
that one call after the other leaves. -/
theorem updates_kept_iff (hkeeps : KeepsTexts ens resolves name) (hn : config.numbers.Prints)
    (hname : ∀ i, (inputs i).ensName = name)
    (hdisjoint : ∀ f, (inputs false).set f = .none ∨ (inputs true).set f = .none) {w : EnsWorld χ}
    (h : (twoUpdates ens config inputs).Reaches (fun _ _ => True) (Both.start w) c)
    (hreturned : ∀ i, ∃ txHashes, c.phase i = .returned txHashes) :
    ∃ a, c.first = .some a ∧
      (Kept config.numbers resolves name inputs c.world ↔ ∀ f v, (inputs a).set f = .some v → f ∈ c.late (!a) ∨
        config.numbers.shown (w.texts resolves name f) f = config.numbers.shown (.some v) f) ∧
      (Kept config.numbers resolves name inputs c.world → ∀ i h₁ w₁ h₂ w₂,
        updateHost ens config (inputs i) w = .ok h₁ w₁ → updateHost ens config (inputs !i) w₁ = .ok h₂ w₂ →
        ∀ f, config.numbers.shown (c.world.texts resolves name f) f =
          config.numbers.shown (w₂.texts resolves name f) f) := by
  have hwritten : ∀ i, (c.phase i).written = true := by
    intro i
    obtain ⟨txHashes, hi⟩ := hreturned i
    rw [hi]
    rfl
  cases progress_of_reaches hkeeps hname h with
  | raised i message hi =>
    have hraised := hwritten i
    rw [hi] at hraised
    cases hraised
  | begun hb => exact absurd (hwritten false) (by simp [hb.unwritten])
  | led a new hl => exact absurd (hwritten !a) (by simp [hl.unwritten])
  | ended a new he =>
    refine ⟨a, he.first, he.kept_iff hn hdisjoint, ?_⟩
    intro hkept i h₁ w₁ h₂ w₂ hfirst hlast
    exact he.shown_eq hn hkept (updateHost_wrote hkeeps (hname i) hfirst) (updateHost_wrote hkeeps (hname !i) hlast)

/-! ## Two calls against a table -/

theorem keepsTexts_tableChain (name : String) : KeepsTexts tableChain (fun c name key => c.get? (name, key)) name where
  getTextRecord _ _ := fun _ hc => ⟨trivial, congrFun hc _, hc⟩
  getResolver _ := fun _ _ hc => ⟨trivial, hc⟩
  deployResolver := fun _ _ _ => trivial
  grantResolverRoles _ := fun _ _ _ => trivial
  setResolver _ _ := fun _ _ _ => trivial
  setRecords _ _ hnodup := fun c _ => ⟨trivial, fun _ _ h => get?_setTexts_of_mem hnodup h name c⟩

theorem prints_blitzwingEth : blitzwingEth.numbers.Prints := ⟨fun _ h => h, fun _ => rfl⟩

/-- A host is deactivated, and its range is narrowed. -/
def leaveAndNarrow : Bool → UpdateBody
  | false => { ensName := "host-01234567.blitzwing.eth", status := .some "offline" }
  | true => { ensName := "host-01234567.blitzwing.eth", blockIndices := .some "0:4", layersHosted := .some 4 }

theorem leaveAndNarrow_name (i : Bool) : (leaveAndNarrow i).ensName = "host-01234567.blitzwing.eth" := by
  cases i <;> rfl

theorem leaveAndNarrow_disjoint (f : Field) :
    (leaveAndNarrow false).set f = .none ∨ (leaveAndNarrow true).set f = .none := by
  cases f <;> simp [leaveAndNarrow, UpdateBody.set]

/-- Both calls read before either writes. -/
def readFirst : List Bool := List.replicate 9 false ++ List.replicate 9 true ++ [false, false, true, true]

/-- Both read by turns, and the second reads the status after the first wrote. -/
def readLate : List Bool := List.replicate 4 true ++ List.replicate 5 false ++ List.replicate 2 true ++
  List.replicate (turns - 5) false ++ List.replicate (turns - 6) true

def Phase.isReturned : Phase → Bool
  | .returned _ => true
  | _ => false

theorem returned_of_isReturned {phase : Phase} (h : phase.isReturned = true) :
    ∃ txHashes, phase = .returned txHashes := by
  cases phase with
  | returned txHashes => exact ⟨txHashes, rfl⟩
  | _ => cases h

theorem both_returned {c : Both χ} (h : ∀ i, (c.phase i).isReturned = true) :
    ∀ i, ∃ txHashes, c.phase i = .returned txHashes :=
  fun i => returned_of_isReturned (h i)

/-- The host that was deactivated is online, where its call returned as the other did. -/
theorem update_lost : ∃ c, (twoUpdates tableChain blitzwingEth leaveAndNarrow).run (Both.start firstWorld) readFirst =
      .some c ∧ (∀ i, ∃ txHashes, c.phase i = .returned txHashes) ∧
    (∀ i, (leaveAndNarrow i).ensName = "host-01234567.blitzwing.eth") ∧
    (∀ f, (leaveAndNarrow false).set f = .none ∨ (leaveAndNarrow true).set f = .none) ∧
    (leaveAndNarrow false).set .status = .some "offline" ∧
    c.world.chain.get? ("host-01234567.blitzwing.eth", recordKeys.status) = .some "online" := by
  have hrun : ((twoUpdates tableChain blitzwingEth leaveAndNarrow).run (Both.start firstWorld) readFirst).any (fun c =>
      (∀ i, (c.phase i).isReturned = true) ∧
        c.world.chain.get? ("host-01234567.blitzwing.eth", recordKeys.status) = .some "online") = true := by
    decide +kernel
  obtain ⟨c, hc, hcheck⟩ := (Option.any_eq_true _ _).1 hrun
  obtain ⟨hreturned, hstatus⟩ := of_decide_eq_true hcheck
  exact ⟨c, hc, both_returned hreturned, leaveAndNarrow_name, leaveAndNarrow_disjoint, rfl, hstatus⟩

theorem updates_kept_iff_readLate : ∃ c,
    (twoUpdates tableChain blitzwingEth leaveAndNarrow).run (Both.start firstWorld) readLate = .some c ∧
      c.late true = [.status] ∧ Kept blitzwingEth.numbers (fun c name key => c.get? (name, key))
        "host-01234567.blitzwing.eth" leaveAndNarrow c.world := by
  have hrun : ((twoUpdates tableChain blitzwingEth leaveAndNarrow).run (Both.start firstWorld) readLate).any (fun c =>
      (∀ i, (c.phase i).isReturned = true) ∧ c.first = .some false ∧ c.late true = [.status]) = true := by
    decide +kernel
  obtain ⟨c, hc, hcheck⟩ := (Option.any_eq_true _ _).1 hrun
  obtain ⟨hreturned, hfirst, hlate⟩ := of_decide_eq_true hcheck
  obtain ⟨a, ha, hkept, -⟩ := updates_kept_iff (keepsTexts_tableChain _) prints_blitzwingEth leaveAndNarrow_name
    leaveAndNarrow_disjoint (.of_run (fun _ _ _ => trivial) hc) (both_returned hreturned)
  obtain rfl := Option.some.inj (hfirst.symm.trans ha)
  refine ⟨c, hc, hlate, hkept.2 fun f v hv => .inl ?_⟩
  rw [Bool.not_false, hlate, List.mem_singleton]
  cases f <;> simp_all [leaveAndNarrow, UpdateBody.set]

end Blitzwing.Ens
