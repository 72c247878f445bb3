/-
`orchestrator/app/swarm_map.py`, layer reports of any shape: what a `/status`
reply or a heartbeat does when its range is bad.

`SwarmMap` has both paths for a range that is a text. Here a reply is any JSON
object (`LiveBlocks`, `LiveStatus`), and `refresh_live_status` runs to the
manifest it returns (`refreshReplies`); on replies of texts it is the loop of
`SwarmMap` (`reconcileReplies_texts`). A failed probe is `none`, as in
`_fetch_shard_status`, which catches whatever a probe raises. The parse of
what it returned stands outside that `try`, in the middle of the loop, and in
a heartbeat behind the lines that note the time. `parse_range` asks for two
integers, in no order, in any spelling `int` reads; well formed is what the
naming service's `validateBlockIndices` asks of a range: ASCII digits, the
start before the end (`rangeText`).

The file that `refresh_live_status` saves the registry to is left out.
-/
import Blitzwing.Lifecycle
import Blitzwing.Manifest
import Blitzwing.SwarmMap

namespace Blitzwing

open SwarmRegistry

/-! ## Well-formed ranges -/

/-- The layers of a text `start:end` of ASCII digits with `start < end`. -/
def rangeText (blocks : String) : Option Span :=
  match blocks.toList.splitOn ':' with
  | [start, «end»] =>
    if start ≠ [] ∧ «end» ≠ [] ∧ start.all Char.isDigit ∧ «end».all Char.isDigit ∧
        Nat.ofDigitChars 10 start 0 < Nat.ofDigitChars 10 «end» 0 then
      .some ⟨Nat.ofDigitChars 10 start 0, Nat.ofDigitChars 10 «end» 0⟩
    else .none
  | _ => .none

example : rangeText "4:12" = .some ⟨4, 12⟩ ∧ rangeText "12:4" = .none ∧ rangeText " 4:12" = .none := by decide +kernel

theorem rangeText_lt {blocks : String} {s : Span} (h : rangeText blocks = .some s) : 0 ≤ s.lo ∧ s.lo < s.hi := by
  unfold rangeText at h
  split at h
  · split at h
    · next hwell =>
      obtain rfl := Option.some.inj h
      exact ⟨Int.natCast_nonneg _, Int.ofNat_lt.2 hwell.2.2.2.2⟩
    · cases h
  · cases h

theorem pyInt_ascii {cs : List Char} (hne : cs ≠ []) (hdigits : cs.all Char.isDigit = true) :
    pyInt (.ofList cs) = .ok (Nat.ofDigitChars 10 cs 0) := by
  rw [pyInt, PyText.int?_ascii hne (List.all_eq_true.1 hdigits)]

/-- **A well-formed range is read as it is meant.** -/
theorem spanOf_of_rangeText {blocks : String} {s : Span} (h : rangeText blocks = .some s) :
    spanOf blocks = .some s := by
  unfold rangeText at h
  split at h
  · next start «end» hsplit =>
    split at h
    · next hwell =>
      obtain ⟨hstart, hend, hstarts, hends, -⟩ := hwell
      obtain rfl := Option.some.inj h
      refine spanOf_of_parseRange ?_
      simp [parseRange, PyText.split, hsplit, pyInt_ascii hstart hstarts, pyInt_ascii hend hends]
    · cases h
  · cases h

/-! ## Replies -/

/-- `live_blocks`, a JSON value: a text, or a value of another type, by its truth. -/
inductive LiveBlocks
  | text (blocks : String)
  | other (type : String) (truth : Bool)
deriving DecidableEq, Repr

/-- What a shard manager answers; an absent range is `None`. -/
structure LiveStatus where
  blockIndices : LiveBlocks := .other "NoneType" false
  running : Bool := false
deriving DecidableEq, Repr

def LiveBlocks.truth : LiveBlocks → Bool
  | .text blocks => blocks ≠ ""
  | .other _ truth => truth

/-- The range that a host may adopt. -/
def LiveBlocks.text? : LiveBlocks → Option String
  | .text blocks => .some blocks
  | .other _ _ => .none

inductive ReportError
  | py (e : PyError)
  | attributeError (msg : String)
deriving DecidableEq, Repr

abbrev ReportM := EStateM ReportError SwarmRegistry

def SwarmM.report {α : Type} (x : SwarmM α) : ReportM α := fun reg =>
  match x reg with
  | .ok a reg' => .ok a reg'
  | .error e reg' => .error (.py e) reg'

/-- `parse_range` of what is no text, for a host that is still registered. -/
def adoptLive (hostId : String) : LiveBlocks → ReportM Unit
  | .text blocks => SwarmM.report (adoptReport hostId (.some blocks))
  | .other type truth => do
    if truth ∧ (← get).hosts.contains hostId then
      throw (.attributeError s!"'{type}' object has no attribute 'split'")

/-- The turn of `refresh_live_status` for one host, `none` where the probe failed. -/
def reconcileReply (hostId : String) : Option LiveStatus → ReportM Unit
  | .none => return
  | .some status => do
    adoptLive hostId status.blockIndices
    modify fun reg => reg.updateHost hostId fun h => { h with petalsRunning := .some status.running }

def reconcileReplies (probe : String → Option LiveStatus) : List String → ReportM Unit
  | [] => return
  | hostId :: rest => do
    reconcileReply hostId (probe hostId)
    reconcileReplies probe rest

/-- `refresh_live_status` -/
def refreshReplies (probe : String → Option LiveStatus) : ReportM SwarmManifest := do
  let online := (← get).hosts.values.filter (·.status = .online)
  reconcileReplies probe (online.map (·.hostId))
  match buildManifest (← get) with
  | .ok manifest => return manifest
  | .error e => throw (.py e)

/-- A reply as `SwarmMap` has it. -/
def StatusReply.live (status : StatusReply) : LiveStatus where
  blockIndices := status.blockIndices.elim (.other "NoneType" false) .text
  running := status.running

theorem adoptLive_none (hostId : String) (reg : SwarmRegistry) :
    SwarmM.report (adoptReport hostId .none) reg = .ok () reg := by
  simp only [SwarmM.report, adoptReport, locked, truthy]
  cases reg.hosts.get? hostId <;> rfl

/-- **The loop of `SwarmMap`** is this one, on replies of texts. -/
theorem reconcileReplies_texts (probe : String → Option StatusReply) (hostIds : List String) (reg : SwarmRegistry) :
    reconcileReplies (fun k => (probe k).map StatusReply.live) hostIds reg =
      SwarmM.report (reconcileAll probe hostIds) reg := by
  have hone : ∀ hostId reg, reconcileReply hostId ((probe hostId).map StatusReply.live) reg =
      SwarmM.report (reconcile hostId (probe hostId)) reg := by
    intro hostId reg
    cases probe hostId with
    | none => rfl
    | some status =>
      have hadopt : adoptLive hostId status.live.blockIndices reg =
          SwarmM.report (adoptReport hostId status.blockIndices) reg := by
        cases hb : status.blockIndices with
        | none =>
          rw [adoptLive_none]
          simp only [StatusReply.live, hb]
          rfl
        | some blocks => simp only [StatusReply.live, hb, Option.elim, adoptLive]
      simp only [Option.map_some, reconcileReply, reconcile, bind_apply, hadopt]
      simp only [SwarmM.report, bind_apply]
      cases adoptReport hostId status.blockIndices reg <;> rfl
  induction hostIds generalizing reg with
  | nil => rfl
  | cons hostId rest ih =>
    simp only [reconcileReplies, reconcileAll, bind_apply, hone]
    simp only [SwarmM.report, bind_apply]
    cases reconcile hostId (probe hostId) reg with
    | error e reg' => rfl
    | ok _ reg' => exact ih reg'

/-! ## What a reply does -/

/-- The record after its shard's reply. -/
def HostRecord.refreshed (reply : Option LiveStatus) (h : HostRecord) : HostRecord :=
  match reply with
  | .none => h
  | .some status => { h.adopt status.blockIndices.text? with petalsRunning := .some status.running }

/-- A reply that `parse_range` raises on. -/
def LiveBlocks.Breaks (h : HostRecord) : LiveBlocks → Prop
  | .text blocks => h.Unreadable (.some blocks)
  | .other _ truth => truth = true

/-- A reply with a well-formed range. -/
def Carries (reply : Option LiveStatus) : Prop :=
  ∃ status blocks s, reply = .some status ∧ status.blockIndices = .text blocks ∧ rangeText blocks = .some s

/-- **The replies that harm nobody**: a well-formed range, or, for a host whose
range parses, no word at all, or a word of what is on record. -/
def HostRecord.Unharmed (h : HostRecord) (reply : Option LiveStatus) : Prop :=
  Carries reply ∨ (∃ s, spanOf h.blockIndices = .some s) ∧ ∀ status, reply = .some status →
    (status.blockIndices.truth = false ∨ status.blockIndices = .text h.blockIndices) ∧
      h.petalsRunning = .some status.running

@[simp] theorem HostRecord.refreshed_status (h : HostRecord) (reply : Option LiveStatus) :
    (h.refreshed reply).status = h.status := by
  cases reply with
  | none => rfl
  | some status => exact h.adopt_status _

theorem HostRecord.adopt_blockIndices_congr {h g : HostRecord} (hb : g.blockIndices = h.blockIndices)
    (report : Option String) : (g.adopt report).blockIndices = (h.adopt report).blockIndices := by
  simp only [HostRecord.adopt, hb]
  split
  · exact hb
  · split
    · exact hb
    · split
      · rfl
      · exact hb

/-- A report that can be read is the range after it. -/
theorem HostRecord.adopt_blockIndices {h : HostRecord} {report : Option String} {blocks : String}
    (hreads : ¬ h.Unreadable report) (ht : truthy report = .some blocks) : (h.adopt report).blockIndices = blocks := by
  obtain rfl := truthy_eq_some ht
  by_cases he : blocks = h.blockIndices
  · rw [he, h.adopt_self]
  · cases hs : spanOf blocks with
    | none => exact absurd ⟨blocks, ht, he, hs⟩ hreads
    | some s => rw [HostRecord.adopt_of_span hs he]; rfl

theorem HostRecord.running_eq_self {h : HostRecord} {running : Bool} :
    { h with petalsRunning := .some running } = h ↔ h.petalsRunning = .some running := by
  constructor
  · intro he
    exact he ▸ rfl
  · intro hr
    rw [← hr]

/-- A reply of no range, or of the range on record, is harmless where it says what is on record. -/
theorem HostRecord.unharmed_of_word {h : HostRecord} {status : LiveStatus} (hcarries : ¬ Carries (.some status))
    (hword : status.blockIndices.truth = false ∨ status.blockIndices = .text h.blockIndices) :
    h.Unharmed (.some status) ↔ ¬ status.blockIndices.Breaks h ∧
      (∃ s, spanOf (h.refreshed (.some status)).blockIndices = .some s) ∧ h.refreshed (.some status) = h := by
  have hbreaks : ¬ status.blockIndices.Breaks h := by
    cases hb : status.blockIndices with
    | text blocks =>
      rw [hb] at hword
      intro hbad
      obtain ⟨live, hlive, hne, -⟩ := hbad
      obtain rfl := Option.some.inj (truthy_eq_some hlive)
      obtain hempty | hsame := hword
      · exact truthy_ne_empty hlive (by simpa [LiveBlocks.truth] using hempty)
      · exact hne (LiveBlocks.text.inj hsame)
    | other type truth =>
      rw [hb] at hword
      simpa [LiveBlocks.truth, LiveBlocks.Breaks] using hword
  have hadopt : h.adopt status.blockIndices.text? = h := by
    cases hb : status.blockIndices with
    | text blocks =>
      rw [hb] at hword
      obtain hempty | hsame := hword
      · obtain rfl : blocks = "" := by simpa [LiveBlocks.truth] using hempty
        rfl
      · obtain rfl := LiveBlocks.text.inj hsame
        exact h.adopt_self
    | other type truth => rfl
  simp only [HostRecord.Unharmed, hcarries, false_or, HostRecord.refreshed, hadopt, HostRecord.running_eq_self]
  constructor
  · intro hsafe
    obtain ⟨hparses, hreply⟩ := hsafe
    exact ⟨hbreaks, hparses, (hreply status rfl).2⟩
  · intro hsafe
    obtain ⟨-, hparses, hrunning⟩ := hsafe
    refine ⟨hparses, ?_⟩
    intro status' he
    obtain rfl := Option.some.inj he
    exact ⟨hword, hrunning⟩

/-- **A harmless reply** raises nothing, leaves a range that parses, and
changes the record only if it carries a range. -/
theorem HostRecord.unharmed_iff {h : HostRecord} {reply : Option LiveStatus} : h.Unharmed reply ↔
    (∀ status, reply = .some status → ¬ status.blockIndices.Breaks h) ∧
      (∃ s, spanOf (h.refreshed reply).blockIndices = .some s) ∧ (¬ Carries reply → h.refreshed reply = h) := by
  by_cases hcarries : Carries reply
  · obtain ⟨status, blocks, s, rfl, hb, hs⟩ := id hcarries
    have hspan := spanOf_of_rangeText hs
    refine ⟨fun _ => ⟨?_, ?_, fun hno => absurd hcarries hno⟩, fun _ => .inl hcarries⟩
    · intro status' he
      obtain rfl := Option.some.inj he
      rw [hb]
      intro hbad
      obtain ⟨live, hlive, -, hnone⟩ := hbad
      obtain rfl := Option.some.inj (truthy_eq_some hlive)
      rw [hspan] at hnone
      cases hnone
    · simp only [HostRecord.refreshed, hb, LiveBlocks.text?]
      by_cases he : blocks = h.blockIndices
      · exact ⟨s, by rw [he, h.adopt_self, ← he, hspan]⟩
      · exact ⟨s, by rw [HostRecord.adopt_of_span hspan he]; exact hspan⟩
  obtain _ | status := reply
  · simp [HostRecord.Unharmed, HostRecord.refreshed, Carries]
  by_cases hword : status.blockIndices.truth = false ∨ status.blockIndices = .text h.blockIndices
  · rw [HostRecord.unharmed_of_word hcarries hword]
    simp [hcarries]
  · -- Another range, which parses and is not well formed, or breaks.
    refine iff_of_false ?_ ?_
    · intro hunharmed
      exact hword ((hunharmed.resolve_left hcarries).2 status rfl).1
    · intro hsafe
      obtain ⟨hbreaks, -, hsame⟩ := hsafe
      obtain ⟨htruth, hother⟩ := not_or.1 hword
      cases hb : status.blockIndices with
      | other type truth =>
        have hbroken : truth = true := by simpa [hb, LiveBlocks.truth] using htruth
        exact hbreaks status rfl (hb ▸ hbroken)
      | text blocks =>
        have hne : blocks ≠ "" := by simpa [hb, LiveBlocks.truth] using htruth
        have hdiffers : blocks ≠ h.blockIndices := fun he => hother (he ▸ hb)
        cases hspan : spanOf blocks with
        | none => exact hbreaks status rfl (hb ▸ ⟨blocks, truthy_of_ne hne, hdiffers, hspan⟩)
        | some s =>
          have hadopted := congrArg HostRecord.blockIndices (hsame hcarries)
          simp only [HostRecord.refreshed, hb, LiveBlocks.text?, HostRecord.adopt_of_span hspan hdiffers] at hadopted
          exact hdiffers hadopted

namespace SwarmRegistry

variable {reg reg' : SwarmRegistry}

/-- What a registered host's reply does to its range. -/
theorem adoptLive_cases {k : String} {h : HostRecord} (hk : reg.hosts.get? k = .some h) (blocks : LiveBlocks) :
    (¬ blocks.Breaks h ∧ adoptLive k blocks reg = .ok () (reg.updateHost k (·.adopt blocks.text?))) ∨
      blocks.Breaks h ∧ ∃ e, adoptLive k blocks reg = .error e reg := by
  cases blocks with
  | other type truth =>
    cases truth with
    | false =>
      have hsame : reg.updateHost k (·.adopt .none) = reg := updateHost_eq_self fun _ _ => rfl
      exact .inl ⟨Bool.false_ne_true, by rw [LiveBlocks.text?, hsame]; rfl⟩
    | true =>
      have hregistered : reg.hosts.contains k = true := by simp [Dict.contains, hk]
      exact .inr ⟨rfl, .attributeError s!"'{type}' object has no attribute 'split'", by
        simp [adoptLive, bind_apply, hregistered]⟩
  | text blocks =>
    obtain ⟨hreads, hok⟩ | ⟨hbreaks, e, herr⟩ := adoptReport_cases hk (.some blocks)
    · exact .inl ⟨hreads, by simp only [adoptLive, SwarmM.report, hok]; rfl⟩
    · exact .inr ⟨hbreaks, .py e, by simp only [adoptLive, SwarmM.report, herr]⟩

/-- The turn of one host. -/
theorem reconcileReply_cases {k : String} {h : HostRecord} (hk : reg.hosts.get? k = .some h)
    (reply : Option LiveStatus) :
    ((∀ status, reply = .some status → ¬ status.blockIndices.Breaks h) ∧
        reconcileReply k reply reg = .ok () (reg.updateHost k (·.refreshed reply))) ∨
      (∃ status, reply = .some status ∧ status.blockIndices.Breaks h) ∧
        ∃ e, reconcileReply k reply reg = .error e reg := by
  obtain _ | status := reply
  · have hsame : reg.updateHost k (·.refreshed .none) = reg := updateHost_eq_self fun _ _ => rfl
    exact .inl ⟨fun _ he => by simp at he, by rw [hsame]; rfl⟩
  obtain ⟨hreads, hok⟩ | ⟨hbreaks, e, herr⟩ := adoptLive_cases hk status.blockIndices
  · refine .inl ⟨?_, ?_⟩
    · intro status' he
      obtain rfl := Option.some.inj he
      exact hreads
    · simp only [reconcileReply, bind_apply, hok, modify_apply, updateHost_updateHost]
      rfl
  · exact .inr ⟨⟨status, rfl, hbreaks⟩, e, by simp only [reconcileReply, bind_apply, herr]⟩

/-! ## A refresh -/

/-- What the loop over `hostIds` leaves. -/
structure Refreshed (probe : String → Option LiveStatus) (hostIds : List String) (reg reg' : SwarmRegistry) : Prop where
  rest : { reg' with hosts := reg.hosts } = reg
  hosts : ∀ k, reg'.hosts.get? k =
    if k ∈ hostIds then (reg.hosts.get? k).map (·.refreshed (probe k)) else reg.hosts.get? k

theorem Refreshed.cons {probe : String → Option LiveStatus} {hostId : String} {rest : List String}
    (hfresh : hostId ∉ rest) (h : Refreshed probe rest (reg.updateHost hostId (·.refreshed (probe hostId))) reg') :
    Refreshed probe (hostId :: rest) reg reg' := by
  refine ⟨?_, ?_⟩
  · have hrest := congrArg (fun r : SwarmRegistry => { r with hosts := reg.hosts }) h.rest
    exact hrest
  · intro k
    rw [h.hosts, get?_updateHost]
    by_cases hk : k = hostId
    · subst hk
      simp [hfresh]
    · simp [hk]

/-- **The loop** goes through where no reply breaks, and writes each host's
reply into its record; a reply that breaks ends it. -/
theorem reconcileReplies_cases (probe : String → Option LiveStatus) {hostIds : List String} (hnodup : hostIds.Nodup)
    (hregistered : ∀ k ∈ hostIds, ∃ h, reg.hosts.get? k = .some h) :
    ((∀ k ∈ hostIds, ∀ h, reg.hosts.get? k = .some h →
          ∀ status, probe k = .some status → ¬ status.blockIndices.Breaks h) ∧
        ∃ reg', reconcileReplies probe hostIds reg = .ok () reg' ∧ Refreshed probe hostIds reg reg') ∨
      (∃ k ∈ hostIds, ∃ h status, reg.hosts.get? k = .some h ∧ probe k = .some status ∧
          status.blockIndices.Breaks h) ∧ ∃ e reg', reconcileReplies probe hostIds reg = .error e reg' := by
  induction hostIds generalizing reg with
  | nil => exact .inl ⟨by simp, reg, rfl, rfl, by simp⟩
  | cons hostId rest ih =>
    obtain ⟨hfresh, hrest⟩ := List.nodup_cons.1 hnodup
    obtain ⟨h, hk⟩ := hregistered hostId List.mem_cons_self
    obtain ⟨hreads, hok⟩ | ⟨⟨status, hprobe, hbreaks⟩, e, herr⟩ := reconcileReply_cases hk (probe hostId)
    · -- The other hosts' records are as they were.
      have hothers : ∀ k ∈ rest, (reg.updateHost hostId (·.refreshed (probe hostId))).hosts.get? k = reg.hosts.get? k := by
        intro k hmem
        have hne : k ≠ hostId := fun he => hfresh (he ▸ hmem)
        rw [get?_updateHost, if_neg hne]
      have hregistered' : ∀ k ∈ rest, ∃ g,
          (reg.updateHost hostId (·.refreshed (probe hostId))).hosts.get? k = .some g := by
        intro k hmem
        rw [hothers k hmem]
        exact hregistered k (List.mem_cons_of_mem _ hmem)
      simp only [reconcileReplies, bind_apply, hok]
      obtain ⟨hall, reg', hok', hleft⟩ | ⟨⟨k, hmem, g, status, hg, hprobe, hbreaks⟩, herr'⟩ := ih hrest hregistered'
      · refine .inl ⟨?_, reg', hok', hleft.cons hfresh⟩
        intro k hmem g hg
        obtain rfl | hmem := List.mem_cons.1 hmem
        · obtain rfl := Option.some.inj (hk.symm.trans hg)
          exact hreads
        · exact hall k hmem g ((hothers k hmem).trans hg)
      · exact .inr ⟨⟨k, List.mem_cons_of_mem _ hmem, g, status, (hothers k hmem).symm.trans hg, hprobe, hbreaks⟩, herr'⟩
    · refine .inr ⟨⟨hostId, List.mem_cons_self, h, status, hk, hprobe, hbreaks⟩, e, reg, ?_⟩
      simp only [reconcileReplies, bind_apply, herr]

/-- The ids of the loop, one for each host that is online. -/
def onlineIds (reg : SwarmRegistry) : List String :=
  (reg.hosts.values.filter (·.status = .online)).map (·.hostId)

theorem mem_onlineIds (hkeyed : reg.Keyed) {k : String} :
    k ∈ reg.onlineIds ↔ ∃ h, reg.hosts.get? k = .some h ∧ h.status = .online := by
  simp only [onlineIds, List.mem_map, List.mem_filter, decide_eq_true_eq, Dict.mem_values]
  constructor
  · intro hmem
    obtain ⟨h, ⟨⟨j, hj⟩, honline⟩, hid⟩ := hmem
    obtain rfl : j = k := (hkeyed j h hj).symm.trans hid
    exact ⟨h, hj, honline⟩
  · intro hmem
    obtain ⟨h, hk, honline⟩ := hmem
    exact ⟨h, ⟨⟨k, hk⟩, honline⟩, hkeyed k h hk⟩

theorem nodup_onlineIds (hkeyed : reg.Keyed) : reg.onlineIds.Nodup := by
  have hids : reg.hosts.values.map (·.hostId) = reg.hosts.keys := by
    simp only [Dict.values, Dict.keys, List.map_map]
    refine List.map_congr_left ?_
    intro p hp
    exact hkeyed p.1 p.2 (Dict.get?_eq_some.2 hp)
  refine List.Nodup.sublist (List.filter_sublist.map _) ?_
  rw [hids]
  exact reg.hosts.nodup

/-- The refresh returns a manifest, and writes into no record but those of
online hosts whose reply carried a well-formed range. -/
def RefreshSafe (probe : String → Option LiveStatus) (reg : SwarmRegistry) : Prop :=
  ∃ manifest reg', refreshReplies probe reg = .ok manifest reg' ∧ { reg' with hosts := reg.hosts } = reg ∧
    ∀ k, (k ∈ reg.onlineIds → ¬ Carries (probe k)) → reg'.hosts.get? k = reg.hosts.get? k

theorem refreshReplies_apply (probe : String → Option LiveStatus) (reg : SwarmRegistry) :
    refreshReplies probe reg = match reconcileReplies probe reg.onlineIds reg with
      | .ok _ reg' => match buildManifest reg' with
        | .ok manifest => .ok manifest reg'
        | .error e => .error (.py e) reg'
      | .error e reg' => .error e reg' := by
  simp only [refreshReplies, bind_apply, get_apply, onlineIds]
  cases reconcileReplies probe ((reg.hosts.values.filter (·.status = .online)).map (·.hostId)) reg with
  | error e reg' => rfl
  | ok _ reg' =>
    simp only
    cases buildManifest reg' <;> rfl

theorem Refreshed.online (hkeyed : reg.Keyed) {probe : String → Option LiveStatus}
    (hleft : Refreshed probe reg.onlineIds reg reg') {k : String} {h : HostRecord} (hk : reg.hosts.get? k = .some h)
    (honline : h.status = .online) : reg'.hosts.get? k = .some (h.refreshed (probe k)) := by
  rw [hleft.hosts, if_pos ((mem_onlineIds hkeyed).2 ⟨h, hk, honline⟩), hk, Option.map_some]

/-- The refreshed records have ranges that can be read where every reply leaves one. -/
theorem Refreshed.readable_iff (hkeyed : reg.Keyed) {probe : String → Option LiveStatus}
    (hleft : Refreshed probe reg.onlineIds reg reg') : reg'.Readable ↔
      ∀ k h, reg.hosts.get? k = .some h → h.status = .online →
        ∃ s, spanOf (h.refreshed (probe k)).blockIndices = .some s := by
  constructor
  · intro hr k h hk honline
    exact hr k _ (hleft.online hkeyed hk honline) ((h.refreshed_status _).trans honline)
  · intro hall k g hg honline
    rw [hleft.hosts] at hg
    split at hg
    · obtain ⟨h, hk, rfl⟩ := Option.map_eq_some_iff.1 hg
      exact hall k h hk ((h.refreshed_status _).symm.trans honline)
    · next hno => exact absurd ((mem_onlineIds hkeyed).2 ⟨g, hg, honline⟩) hno

/-- **Replies that harm nobody**, host by host. -/
theorem refreshSafe_iff (hkeyed : reg.Keyed) (probe : String → Option LiveStatus) : reg.RefreshSafe probe ↔
    ∀ k h, reg.hosts.get? k = .some h → h.status = .online → h.Unharmed (probe k) := by
  have hids := @mem_onlineIds reg hkeyed
  simp only [RefreshSafe, refreshReplies_apply, HostRecord.unharmed_iff]
  obtain ⟨hreads, reg', hok, hleft⟩ | ⟨⟨k, hk, h, status, hget, hprobe, hbreaks⟩, e, reg', herr⟩ :=
    reconcileReplies_cases probe (nodup_onlineIds hkeyed) fun k hk => ((mem_onlineIds hkeyed).1 hk).imp fun _ h => h.1
  · have hreadable := hleft.readable_iff hkeyed
    simp only [hok]
    constructor
    · intro hsafe k h hk honline
      obtain ⟨manifest, reg'', hmanifest, -, hsame⟩ := hsafe
      cases hb : buildManifest reg' with
      | error e =>
        rw [hb] at hmanifest
        cases hmanifest
      | ok built =>
        rw [hb] at hmanifest
        obtain ⟨-, rfl⟩ := EStateM.Result.ok.inj hmanifest
        refine ⟨hreads k (hids.2 ⟨h, hk, honline⟩) h hk, ?_, ?_⟩
        · exact hreadable.1 (exists_buildManifest.1 ⟨built, hb⟩) k h hk honline
        · intro hno
          exact Option.some.inj ((hleft.online hkeyed hk honline).symm.trans ((hsame k fun _ => hno).trans hk))
    · intro hall
      obtain ⟨manifest, hb⟩ := exists_buildManifest.2 (hreadable.2 fun k h hk honline => (hall k h hk honline).2.1)
      refine ⟨manifest, reg', by rw [hb], hleft.rest, ?_⟩
      intro k hno
      rw [hleft.hosts]
      split
      · next hmem =>
        obtain ⟨h, hk, honline⟩ := hids.1 hmem
        rw [hk, Option.map_some, (hall k h hk honline).2.2 (hno hmem)]
      · rfl
  · simp only [herr]
    refine iff_of_false ?_ ?_
    · intro hsafe
      obtain ⟨_, _, hmanifest, -⟩ := hsafe
      cases hmanifest
    · intro hall
      obtain ⟨g, hg, honline⟩ := hids.1 hk
      obtain rfl := Option.some.inj (hget.symm.trans hg)
      exact (hall k h hget honline).1 status hprobe hbreaks

/-! ## A heartbeat -/

/-- A heartbeat that raises changes nothing, and a range it accepts is well formed. -/
def HeartbeatSafe (hostId : String) (report : HeartbeatReport) (now : Int) (reg : SwarmRegistry) : Prop :=
  (∀ e reg', applyHeartbeatManifest hostId report now reg = .error e reg' → reg' = reg) ∧
    ∀ reg', applyHeartbeatManifest hostId report now reg = .ok () reg' → (truthy report.blockIndices).isSome →
      ∃ h s, reg'.hosts.get? hostId = .some h ∧ rangeText h.blockIndices = .some s ∧ 0 ≤ s.lo ∧ s.lo < s.hi

/-- The record after a heartbeat's first lines. -/
def beat (now : Int) (h : HostRecord) : HostRecord :=
  { h with lastHeartbeat := now, status := if h.status = .offline then .online else h.status }

theorem applyHeartbeatManifest_cases {hostId : String} {h : HostRecord} (hk : reg.hosts.get? hostId = .some h)
    (report : HeartbeatReport) (now : Int) :
    (¬ h.Unreadable report.blockIndices ∧ ∃ reg' h', applyHeartbeatManifest hostId report now reg = .ok () reg' ∧
        reg'.hosts.get? hostId = .some h' ∧ h'.blockIndices = (h.adopt report.blockIndices).blockIndices) ∨
      h.Unreadable report.blockIndices ∧
        ∃ e, applyHeartbeatManifest hostId report now reg = .error e (reg.updateHost hostId (beat now)) := by
  have hbeat : heartbeat hostId now reg = .ok () (reg.updateHost hostId (beat now)) := by
    simp only [heartbeat, locked, hk]
    rfl
  have hk' : (reg.updateHost hostId (beat now)).hosts.get? hostId = .some (beat now h) := by
    rw [get?_updateHost, if_pos rfl, hk, Option.map_some]
  obtain ⟨hreads, hok⟩ | ⟨hbreaks, e, herr⟩ := adoptReport_cases hk' report.blockIndices
  · refine .inl ⟨hreads, ?_⟩
    obtain ⟨h', hh', hseat⟩ := (noteContact_sameSeats hostId report
      ((reg.updateHost hostId (beat now)).updateHost hostId (·.adopt report.blockIndices))).seated hostId
        ((beat now h).adopt report.blockIndices) (by rw [get?_updateHost, if_pos rfl, hk', Option.map_some])
    refine ⟨_, h', ?_, hh', ?_⟩
    · simp only [applyHeartbeatManifest, bind_apply, hbeat, hok, modify_apply]
    · exact hseat.blockIndices.trans (HostRecord.adopt_blockIndices_congr (g := beat now h) (h := h) rfl _)
  · exact .inr ⟨hbreaks, e, by simp only [applyHeartbeatManifest, bind_apply, hbeat, herr]⟩

theorem updateHost_beat_eq_self {hostId : String} {h : HostRecord} (hk : reg.hosts.get? hostId = .some h) (now : Int) :
    reg.updateHost hostId (beat now) = reg ↔ h.lastHeartbeat = now ∧ h.status ≠ .offline := by
  constructor
  · intro he
    have hbeat : beat now h = h := by
      have hget := congrArg (fun r : SwarmRegistry => r.hosts.get? hostId) he
      simp only [get?_updateHost, if_pos, hk, Option.map_some] at hget
      exact Option.some.inj hget
    refine ⟨(congrArg HostRecord.lastHeartbeat hbeat).symm, ?_⟩
    intro hoff
    have hstatus := congrArg HostRecord.status hbeat
    simp [beat, hoff] at hstatus
  · intro hbeat
    obtain ⟨hnow, hlive⟩ := hbeat
    refine updateHost_eq_self ?_
    intro g hg
    obtain rfl := Option.some.inj (hk.symm.trans hg)
    simp [beat, ← hnow, hlive]

/-- **A heartbeat is safe** from a stranger, with no report, with a well-formed
one, or where it raises and the host was heard from in the same second. -/
theorem heartbeatSafe_iff (hostId : String) (report : HeartbeatReport) (now : Int) (reg : SwarmRegistry) :
    reg.HeartbeatSafe hostId report now ↔ ∀ h, reg.hosts.get? hostId = .some h →
      ∀ blocks, truthy report.blockIndices = .some blocks → (∃ s, rangeText blocks = .some s) ∨
        h.Unreadable report.blockIndices ∧ h.lastHeartbeat = now ∧ h.status ≠ .offline := by
  cases hk : reg.hosts.get? hostId with
  | none =>
    have herr : applyHeartbeatManifest hostId report now reg = .error (.keyError hostId) reg := by
      simp only [applyHeartbeatManifest, heartbeat, locked, bind_apply, hk]
    simp [HeartbeatSafe, herr]
  | some h =>
    simp only [Option.some.injEq, forall_eq']
    obtain ⟨hreads, reg', h', hok, hh', hblocks⟩ | ⟨hbreaks, e, herr⟩ := applyHeartbeatManifest_cases hk report now
    · simp only [HeartbeatSafe, hok, hreads, false_and, or_false]
      constructor
      · intro hsafe blocks ht
        obtain ⟨g, s, hg, hs, -⟩ := hsafe.2 reg' rfl (by simp [ht])
        obtain rfl := Option.some.inj (hh'.symm.trans hg)
        rw [hblocks, HostRecord.adopt_blockIndices hreads ht] at hs
        exact ⟨s, hs⟩
      · intro hwell
        refine ⟨fun _ _ he => by simp at he, ?_⟩
        intro reg'' he hsome
        obtain rfl := (EStateM.Result.ok.inj he).2
        obtain ⟨blocks, ht⟩ := Option.isSome_iff_exists.1 hsome
        obtain ⟨s, hs⟩ := hwell blocks ht
        exact ⟨h', s, hh', by rw [hblocks, HostRecord.adopt_blockIndices hreads ht, hs], rangeText_lt hs⟩
    · have hsafe : reg.HeartbeatSafe hostId report now ↔ reg.updateHost hostId (beat now) = reg := by
        simp [HeartbeatSafe, herr]
      obtain ⟨blocks, ht, -, hnone⟩ := id hbreaks
      have hill : ¬ ∃ s, rangeText blocks = .some s := by
        intro hwell
        obtain ⟨s, hs⟩ := hwell
        rw [spanOf_of_rangeText hs] at hnone
        cases hnone
      rw [hsafe, updateHost_beat_eq_self hk]
      simp [ht, hill, hbreaks]

end SwarmRegistry

/-- **Whom a bad layer report harms.** A refresh returns its manifest and
writes into nobody's record but where a well-formed range came, exactly when
every online host's reply is harmless. A heartbeat that raises changes
nothing, and one that is accepted leaves a well-formed range, exactly when
the host is unknown, its report is none or well formed, or the report does
not parse and the heartbeat had no time to note. -/
theorem reports_safe_iff {reg : SwarmRegistry} (hkeyed : reg.Keyed) (probe : String → Option LiveStatus)
    (hostId : String) (report : HeartbeatReport) (now : Int) :
    (reg.RefreshSafe probe ↔
      ∀ k h, reg.hosts.get? k = .some h → h.status = .online → h.Unharmed (probe k)) ∧
    (reg.HeartbeatSafe hostId report now ↔ ∀ h, reg.hosts.get? hostId = .some h →
      ∀ blocks, truthy report.blockIndices = .some blocks → (∃ s, rangeText blocks = .some s) ∨
        h.Unreadable report.blockIndices ∧ h.lastHeartbeat = now ∧ h.status ≠ .offline) :=
  ⟨refreshSafe_iff hkeyed probe, heartbeatSafe_iff hostId report now reg⟩

/-- Two hosts join for four layers each, and are ready. -/
def twoJoins : List Event :=
  [joinEvent 4 "host-a" 0, .markReady answering "host-a" .none 1, joinEvent 4 "host-b" 2,
    .markReady answering "host-b" .none 3]

/-- The mother and host A answer, and host B's probe fails. -/
def replies (hostA : String) (hostId : String) : Option LiveStatus :=
  if hostId = "mother" then .some ⟨.text "0:4", true⟩
  else if hostId = "host-a" then .some ⟨.text hostA, true⟩
  else .none

/-- A refresh is safe beside a failed probe, unless host A reports `8:4`. -/
theorem reports_safe_iff_demo : ∃ reg, registryMachine.run (demo 12) twoJoins = .some reg ∧
    reg.onlineIds = ["mother", "host-a", "host-b"] ∧ reg.RefreshSafe (replies "4:12") ∧
    ¬ reg.RefreshSafe (replies "8:4") ∧ reg.HeartbeatSafe "host-a" { blockIndices := .some "4:12" } 5 := by
  have hmother : rangeText "0:4" = .some ⟨0, 4⟩ := by decide +kernel
  have hwell : rangeText "4:12" = .some ⟨4, 12⟩ := by decide +kernel
  have hill : rangeText "8:4" = .none := by decide +kernel
  have hcheck : ((registryMachine.run (demo 12) twoJoins).any fun reg =>
      reg.onlineIds = ["mother", "host-a", "host-b"] && (reg.hosts.get? "host-a").any fun h =>
        h.status = .online && h.blockIndices = "8:12") = true := by decide +kernel
  obtain ⟨reg, hrun, hcheck⟩ := (Option.any_eq_true _ _).1 hcheck
  simp only [Bool.and_eq_true, decide_eq_true_eq, Option.any_eq_true] at hcheck
  obtain ⟨honline, host, hhost, hstatus, hblocks⟩ := hcheck
  have hw := wellformed_of_run hrun
  obtain ⟨hrefresh, hbeat⟩ := reports_safe_iff hw.keyed (replies "4:12") "host-a" { blockIndices := .some "4:12" } 5
  obtain ⟨hbad, -⟩ := reports_safe_iff hw.keyed (replies "8:4") "host-a" { blockIndices := .some "8:4" } 5
  refine ⟨reg, hrun, honline, hrefresh.2 ?_, fun hsafe => ?_, hbeat.2 ?_⟩
  · intro k h hk _
    by_cases hm : k = "mother"
    · exact .inl ⟨_, _, _, if_pos hm, rfl, hmother⟩
    · by_cases ha : k = "host-a"
      · subst ha
        exact .inl ⟨_, _, _, rfl, rfl, hwell⟩
      · obtain ⟨s, hs, -⟩ := (hw.each k h hk).sized
        refine .inr ⟨⟨s, hs⟩, fun status he => ?_⟩
        simp [replies, hm, ha] at he
  · obtain ⟨_, _, s, he, htext, hs⟩ | ⟨-, hword⟩ := hbad.1 hsafe "host-a" host hhost hstatus
    · obtain rfl := Option.some.inj he
      obtain rfl := LiveBlocks.text.inj htext
      rw [hill] at hs
      cases hs
    · obtain ⟨hempty | hsame, -⟩ := hword _ rfl
      · cases hempty
      · rw [hblocks] at hsame
        exact absurd (LiveBlocks.text.inj hsame) (by decide)
  · intro h _ blocks ht
    obtain rfl := Option.some.inj (truthy_eq_some ht)
    exact .inl ⟨_, hwell⟩

/-- A shard that answers `all`, or a number, or `8:4`, leaves no manifest or a
range nobody meant. So does a heartbeat of `8:4` or ` 0:1_2`, and one of `all`
raises after its time is noted. -/
theorem bad_reports : ¬ (demo 12).RefreshSafe (fun _ => .some ⟨.text "all", true⟩) ∧
    ¬ (demo 12).RefreshSafe (fun _ => .some ⟨.other "int" true, true⟩) ∧
    ¬ (demo 12).RefreshSafe (fun _ => .some ⟨.text "8:4", true⟩) ∧
    applyHeartbeatManifest "mother" { blockIndices := .some "all" } 5 (demo 12) =
      .error (.valueError "not enough values to unpack (expected 2, got 1)") ((demo 12).updateHost "mother" (beat 5)) ∧
    ¬ (demo 12).HeartbeatSafe "mother" { blockIndices := .some "all" } 5 ∧
    ¬ (demo 12).HeartbeatSafe "mother" { blockIndices := .some "8:4" } 5 ∧
    ¬ (demo 12).HeartbeatSafe "mother" { blockIndices := .some " 0:1_2" } 5 := by
  have hrefresh : ∀ blocks : LiveBlocks, blocks.truth = true → blocks ≠ .text (formatRange 0 12) →
      (∀ s, blocks = .text s → rangeText s = .none) → ¬ (demo 12).RefreshSafe (fun _ => .some ⟨blocks, true⟩) := by
    intro blocks htruth hother hill hsafe
    obtain ⟨_, s, _, he, hb, hs⟩ | ⟨-, hword⟩ :=
      (refreshSafe_iff (wellformed_init (init_demo 12)).keyed _).1 hsafe "mother" _ rfl rfl
    · obtain rfl := Option.some.inj he
      rw [hill s hb] at hs
      cases hs
    · obtain hfalsy | hsame := (hword _ rfl).1
      · rw [htruth] at hfalsy
        cases hfalsy
      · exact hother hsame
  have hbeat : ∀ blocks, blocks ≠ "" → rangeText blocks = .none →
      ¬ (demo 12).HeartbeatSafe "mother" { blockIndices := .some blocks } 5 := by
    intro blocks hne hill hsafe
    obtain ⟨s, hs⟩ | ⟨-, hnow, -⟩ := (heartbeatSafe_iff _ _ _ _).1 hsafe _ rfl blocks (truthy_of_ne hne)
    · rw [hill] at hs
      cases hs
    · cases hnow
  have hall : rangeText "all" = .none := by decide +kernel
  have hreversed : rangeText "8:4" = .none := by decide +kernel
  have hspaced : rangeText " 0:1_2" = .none := by decide +kernel
  refine ⟨hrefresh _ rfl (by decide) ?_, hrefresh _ rfl (by decide) ?_, hrefresh _ rfl (by decide) ?_, ?_,
    hbeat _ (by decide) hall, hbeat _ (by decide) hreversed, hbeat _ (by decide) hspaced⟩
  · intro s hs
    exact LiveBlocks.text.inj hs ▸ hall
  · intro s hs
    cases hs
  · intro s hs
    exact LiveBlocks.text.inj hs ▸ hreversed
  · rfl

end Blitzwing
