/-
What a verdict of `verify_host` says of the host.

`_VERIFY_CACHE` keeps one verdict for each host id, and neither side of the
comparison. A verdict is of the record and of the fields of one moment
(`Remembers`), and for thirty seconds it is the answer whatever became of
either: a host whose range has changed passes on the old one, and one whose
name was just updated still fails (`stale_verdicts`).

The registry and the service may change at any moment, and the service may be
out of reach (`Behind`).
-/
import Blitzwing.Published

namespace Blitzwing.Sync

open Ens (EnsConfig EnsCall EnsAnswer EnsChain EnsWorld Stores Identity Identifies tableChain blitzwingEth)

variable {ω : Type}

/-! ## The calls, and what changes between them -/

/-- A call of `verify_host` that asked the service, of the host as it was then. -/
structure Lookup where
  time : Int
  host : HostRecord
  record : Option EnsRecord
deriving DecidableEq, Repr

def Lookup.verdict (l : Lookup) : Bool := l.record.any (·.matches l.host)

/-- The orchestrator, with the lookups so far, the last one first. -/
structure Watch (ω : Type) where
  state : EnsState ω
  clock : Int := 0
  /-- Not in the code. -/
  lookups : List Lookup := []

/-- The last lookup for a host id. -/
def Watch.latest (c : Watch ω) (hostId : String) : Option Lookup := c.lookups.find? (·.host.hostId = hostId)

inductive WatchEvent (ω : Type)
  | verify (host : HostRecord)
  | update (ensName : String) (host : HostRecord) (status : String)
  | provision (host : HostRecord)
  /-- A handoff, a reclaim, a re-carve. -/
  | registry (registry : SwarmRegistry)
  /-- Of the records on the chain. -/
  | service (service : ω)
  | tick (seconds : ℕ)

/-- What a call leaves, whether it returns or raises. -/
def leaves {α : Type} (x : SyncM ω α) (s : EnsState ω) : EnsState ω :=
  match x s with
  | .ok _ s => s
  | .error _ s => s

section

variable (backend : EnsBackend ω) (settings : Settings)

/-- The lookup a verification makes, where it is answered. -/
def lookup (now : Int) (host : HostRecord) (s : EnsState ω) : Option Lookup :=
  if asks settings now host s.verifyCache then
    match (backend.resolve ((truthy host.ensName).getD "") s.service).1 with
    | .ok record => .some ⟨now, host, record⟩
    | .error _ => .none
  else .none

def Watch.verified (c : Watch ω) (host : HostRecord) : Watch ω where
  state := leaves (verifyHost backend settings c.clock host) c.state
  clock := c.clock
  lookups := (lookup backend settings c.clock host c.state).toList ++ c.lookups

def WatchEvent.apply (c : Watch ω) : WatchEvent ω → Watch ω
  | .verify host => c.verified backend settings host
  | .update ensName host status => { c with state := leaves (updateHost backend ensName host status) c.state }
  | .provision host => { c with state := leaves (provisionHost backend host) c.state }
  | .registry reg => { c with state := { c.state with registry := reg } }
  | .service s => { c with state := { c.state with service := s } }
  | .tick seconds => { c with clock := c.clock + seconds }

def watching : Machine (Watch ω) (WatchEvent ω) where
  step c e := .some (e.apply backend settings c)

end

/-! ## The cache is the last lookups -/

variable {backend : EnsBackend ω} {settings : Settings}

structure Remembers (c : Watch ω) : Prop where
  cached : ∀ hostId, c.state.verifyCache.get? hostId = (c.latest hostId).map fun l => (l.verdict, l.time)
  past : ∀ l ∈ c.lookups, l.time ≤ c.clock

/-- A verdict that is less than thirty seconds old. -/
def Lookup.Fresh (l : Lookup) (now : Int) : Prop := now - l.time < verifyTtlSeconds

instance (l : Lookup) (now : Int) : Decidable (l.Fresh now) := inferInstanceAs (Decidable (_ < _))

theorem Remembers.any_fresh {c : Watch ω} (hr : Remembers c) (hostId : String) (now : Int) :
    ((c.state.verifyCache.get? hostId).any fun cached => now - cached.2 < verifyTtlSeconds) =
      (c.latest hostId).any (·.Fresh now) := by
  rw [hr.cached hostId]
  cases c.latest hostId <;> rfl

/-- What a verification of a host with a name does: the last verdict while it
is fresh, else the service is asked. -/
theorem verifyHost_eq {s : EnsState ω} {host : HostRecord} {name : String} (henabled : settings.ensEnabled = true)
    (hname : truthy host.ensName = .some name) (now : Int) :
    verifyHost backend settings now host s =
      match (s.verifyCache.get? host.hostId).filter fun cached => now - cached.2 < verifyTtlSeconds with
      | .some cached => .ok cached.1 s
      | .none =>
        match backend.resolve name s.service with
        | (.error message, service) => .error (.ensClientError (PyError.httpError message).text) { s with service }
        | (.ok record, service) =>
          let ok := record.any (·.matches host)
          .ok ok { s with service, verifyCache := s.verifyCache.set host.hostId (ok, now) } := by
  unfold verifyHost asks Blitzwing.verifyHost
  simp only [henabled, hname, Bool.true_eq_false, if_false, Option.getD_some, Option.isSome_some, Bool.true_and]
  rcases hr : backend.resolve name s.service with ⟨_ | record, service⟩
  all_goals
    rcases s.verifyCache.get? host.hostId with _ | cached
    · simp [hr, Except.mapError]
    · by_cases hf : now - cached.2 < verifyTtlSeconds
      · simp [Option.filter, hf]
      · simp [Option.filter, hf, hr, Except.mapError]

theorem lookup_of_not_asks {now : Int} {host : HostRecord} {s : EnsState ω}
    (h : asks settings now host s.verifyCache = false) : lookup backend settings now host s = .none := by
  rw [lookup, h]
  rfl

variable (backend) in
/-- Where nothing is compared, nothing is asked. -/
theorem verifyHost_idle (host : HostRecord) (h : settings.ensEnabled = false ∨ truthy host.ensName = .none) (now : Int)
    (s : EnsState ω) : lookup backend settings now host s = .none ∧
      ∃ ok, verifyHost backend settings now host s = .ok ok s ∧ (settings.ensEnabled = false → ok = true) := by
  have hasks : asks settings now host s.verifyCache = false := by
    obtain hoff | hnone := h
    · simp [asks, hoff]
    · simp [asks, hnone]
  refine ⟨lookup_of_not_asks hasks, ?_⟩
  unfold verifyHost Blitzwing.verifyHost
  simp only [hasks]
  cases he : settings.ensEnabled with
  | false => exact ⟨true, rfl, fun _ => rfl⟩
  | true =>
    obtain hoff | hnone := h
    · rw [he] at hoff
      cases hoff
    · rw [hnone]
      exact ⟨!settings.ensStrict, rfl, fun hoff => by cases hoff⟩

variable (backend) in
/-- The last verdict while it is fresh, else that of a new lookup. -/
theorem Remembers.verifyHost_cases {c : Watch ω} (hr : Remembers c) {host : HostRecord} {name : String}
    (henabled : settings.ensEnabled = true) (hname : truthy host.ensName = .some name) (now : Int) :
    (∃ l, c.latest host.hostId = .some l ∧ l.Fresh now ∧ lookup backend settings now host c.state = .none ∧
        verifyHost backend settings now host c.state = .ok l.verdict c.state) ∨
      (∀ l, c.latest host.hostId = .some l → ¬ l.Fresh now) ∧
        ((∃ message service, backend.resolve name c.state.service = (.error message, service) ∧
            lookup backend settings now host c.state = .none ∧
            verifyHost backend settings now host c.state =
              .error (.ensClientError (PyError.httpError message).text) { c.state with service }) ∨
          ∃ record service, backend.resolve name c.state.service = (.ok record, service) ∧
            lookup backend settings now host c.state = .some ⟨now, host, record⟩ ∧
            verifyHost backend settings now host c.state = .ok (Lookup.verdict ⟨now, host, record⟩) { c.state with
              service, verifyCache := c.state.verifyCache.set host.hostId (Lookup.verdict ⟨now, host, record⟩, now) }) := by
  have hfresh := hr.any_fresh host.hostId now
  have hasks : asks settings now host c.state.verifyCache = !(c.latest host.hostId).any (·.Fresh now) := by
    rw [asks, hfresh, henabled, hname]
    rfl
  rw [verifyHost_eq henabled hname, hr.cached host.hostId, lookup, hasks, hname]
  cases hl : c.latest host.hostId with
  | some l =>
    by_cases hf : l.Fresh now
    · refine .inl ⟨l, rfl, hf, ?_, ?_⟩
      · simp [hf]
      · have hkept : now - l.time < verifyTtlSeconds := hf
        simp [Option.filter, hkept]
    · refine .inr ⟨fun l' hl' => Option.some.inj hl' ▸ hf, ?_⟩
      have hold : ¬ now - l.time < verifyTtlSeconds := hf
      rcases hres : backend.resolve name c.state.service with ⟨message | record, service⟩
      · exact .inl ⟨message, service, rfl, by simp [hf, hres], by simp [Option.filter, hold]⟩
      · exact .inr ⟨record, service, rfl, by simp [hf, hres], by simp [Option.filter, hold, Lookup.verdict]⟩
  | none =>
    refine .inr ⟨fun _ h => (by cases h), ?_⟩
    rcases hres : backend.resolve name c.state.service with ⟨message | record, service⟩
    · exact .inl ⟨message, service, rfl, by simp [hres], by simp⟩
    · exact .inr ⟨record, service, rfl, by simp [hres], by simp [Lookup.verdict]⟩

/-- A lookup is the last one of its host id. -/
theorem Remembers.recorded {c : Watch ω} (hr : Remembers c) {l : Lookup} (htime : l.time = c.clock) (service : ω) :
    Remembers { c with
      state := { c.state with service, verifyCache := c.state.verifyCache.set l.host.hostId (l.verdict, l.time) }
      lookups := l :: c.lookups } := by
  refine ⟨?_, ?_⟩
  · intro hostId
    simp only [Watch.latest, Dict.get?_set, List.find?_cons]
    by_cases he : hostId = l.host.hostId
    · subst he
      simp
    · rw [if_neg he, hr.cached hostId]
      simp [Watch.latest, Ne.symm he]
  · intro l' hl'
    obtain rfl | hl' := List.mem_cons.1 hl'
    · exact htime.le
    · exact hr.past l' hl'

theorem Remembers.verified {c : Watch ω} (hr : Remembers c) (host : HostRecord) :
    Remembers (c.verified backend settings host) := by
  by_cases hidle : settings.ensEnabled = false ∨ truthy host.ensName = .none
  · obtain ⟨hlookup, ok, hok, -⟩ := verifyHost_idle backend host hidle c.clock c.state
    simp only [Watch.verified, leaves, hlookup, hok]
    exact hr
  · obtain ⟨hon, hnamed⟩ := not_or.1 hidle
    obtain ⟨name, hname⟩ := Option.ne_none_iff_exists'.1 hnamed
    obtain ⟨l, -, -, hlookup, hok⟩ | ⟨-, ⟨message, service, -, hlookup, herr⟩ | ⟨record, service, -, hlookup, hok⟩⟩ :=
      hr.verifyHost_cases backend (Bool.not_eq_false _ ▸ hon) hname c.clock
    · simp only [Watch.verified, leaves, hlookup, hok]
      exact hr
    · simp only [Watch.verified, leaves, hlookup, herr]
      exact ⟨hr.cached, hr.past⟩
    · simp only [Watch.verified, leaves, hlookup, hok]
      exact hr.recorded (l := ⟨c.clock, host, record⟩) rfl service

theorem Remembers.apply {c : Watch ω} (hr : Remembers c) (e : WatchEvent ω) :
    Remembers (e.apply backend settings c) := by
  cases e with
  | verify host => exact hr.verified host
  | update ensName host status =>
    obtain ⟨_, _, -, -, h⟩ | ⟨_, h⟩ := updateHost_cases backend ensName host status c.state
    all_goals
      simp only [WatchEvent.apply, leaves, h]
      exact ⟨hr.cached, hr.past⟩
  | provision host =>
    obtain ⟨_, _, _, _, -, -, h⟩ | ⟨_, h⟩ := provisionHost_cases backend host c.state
    all_goals
      simp only [WatchEvent.apply, leaves, h]
      exact ⟨hr.cached, hr.past⟩
  | registry reg => exact ⟨hr.cached, hr.past⟩
  | service s => exact ⟨hr.cached, hr.past⟩
  | tick seconds =>
    refine ⟨hr.cached, ?_⟩
    intro l hl
    have hpast := hr.past l hl
    simp only [WatchEvent.apply]
    omega

theorem remembers_of_reaches {c₀ c : Watch ω} (hcache : c₀.state.verifyCache = .empty) (hnone : c₀.lookups = [])
    (h : (watching backend settings).Reaches (fun _ _ => True) c₀ c) : Remembers c := by
  refine h.invariant (I := Remembers) ⟨?_, ?_⟩ ?_
  · intro hostId
    rw [hcache, Watch.latest, hnone]
    rfl
  · simp [hnone]
  · intro c e c' hr _ hstep
    exact Option.some.inj hstep ▸ hr.apply e

/-! ## After a write -/

variable {χ : Type} {ens : EnsChain χ} {config : EnsConfig} {resolves : χ → String → String → Option String}

/-- What the client is answered is the service's answer; it may be answered nothing. -/
structure Behind (backend : EnsBackend (EnsWorld χ)) (ens : EnsChain χ) (config : EnsConfig) : Prop where
  post : ∀ call w answer w', backend.post call w = (.ok answer, w') →
    (ensBackend ens config backend.base).post call w = (.ok answer, w')
  resolve : ∀ name w record w', backend.resolve name w = (.ok record, w') →
    (ensBackend ens config backend.base).resolve name w = (.ok record, w')

theorem behind_ensBackend (base : String) : Behind (ensBackend ens config base) ens config :=
  ⟨fun _ _ _ _ h => h, fun _ _ _ _ h => h⟩

def HostRecord.identity (host : HostRecord) (account : String) : Identity := ⟨host.hostId, account, host.blockIndices⟩

/-- A record that was written for a host is the host's. -/
theorem Behind.matches_of_identifies {backend : EnsBackend (EnsWorld χ)} (hbehind : Behind backend ens config)
    (hstores : Stores ens resolves) {host : HostRecord} {account name : String} {w w' : EnsWorld χ}
    {record : Option EnsRecord} (haccount : host.hederaAccountId = .some account) (hhost : host.hostId ≠ "")
    (hid : Identifies resolves w.chain name (HostRecord.identity host account))
    (hres : backend.resolve name w = (.ok record, w')) : record.any (·.matches host) = true := by
  have hservice := hbehind.resolve _ _ _ _ hres
  simp only [ensBackend] at hservice
  cases hr : Ens.resolveHostRecord ens config name w with
  | error message w₁ =>
    rw [hr] at hservice
    cases hservice
  | ok r w₁ =>
    rw [hr] at hservice
    obtain ⟨-, r, rfl, hidentity⟩ := Ensures.ok
      (Ens.resolveHostRecord_identifies config hstores (HostRecord.identity host account) hhost) hid hr
    obtain ⟨rfl, rfl⟩ : record = .some ⟨.some r.hederaAccountId, .some r.blockIndices, .some r.hostId⟩ ∧ w' = w₁ := by
      cases hservice
      exact ⟨rfl, rfl⟩
    obtain ⟨hh, ha, hb⟩ := Identity.mk.injEq .. ▸ hidentity
    simp [EnsRecord.matches, haccount, hh, ha, hb]

theorem Remembers.of_wrote {c : Watch ω} (hr : Remembers c) {t : EnsState ω}
    (hcache : t.verifyCache = c.state.verifyCache) : Remembers { c with state := t } :=
  ⟨fun hostId => hcache ▸ hr.cached hostId, hr.past⟩

/-- Where the host's record is on the chain, a new lookup passes. -/
theorem Behind.verdict_eq {backend : EnsBackend (EnsWorld χ)} (hbehind : Behind backend ens config)
    (hstores : Stores ens resolves) (henabled : settings.ensEnabled = true) {c : Watch (EnsWorld χ)} (hr : Remembers c)
    {t : EnsState (EnsWorld χ)} (hcache : t.verifyCache = c.state.verifyCache)
    (host : HostRecord) {account name : String} (haccount : host.hederaAccountId = .some account)
    (hhost : host.hostId ≠ "") (hname : truthy host.ensName = .some name)
    (hid : Identifies resolves t.service.chain name (HostRecord.identity host account)) {now : Int}
    {verdict : Bool} {u : EnsState (EnsWorld χ)} (hverify : verifyHost backend settings now host t = .ok verdict u) :
    verdict = ((c.latest host.hostId).filter (·.Fresh now)).elim true Lookup.verdict := by
  have hlatest : ({ c with state := t } : Watch (EnsWorld χ)).latest host.hostId = c.latest host.hostId := rfl
  obtain ⟨l, hl, hf, -, hok⟩ | ⟨hold, ⟨_, _, -, -, herr⟩ | ⟨record, service, hres, -, hok⟩⟩ :=
    (hr.of_wrote hcache).verifyHost_cases backend henabled hname now
  · rw [hok] at hverify
    obtain ⟨rfl, -⟩ := EStateM.Result.ok.inj hverify
    simp [hlatest.symm.trans hl, Option.filter, hf]
  · rw [herr] at hverify
    cases hverify
  · rw [hok] at hverify
    obtain ⟨rfl, -⟩ := EStateM.Result.ok.inj hverify
    have hnone : (c.latest host.hostId).filter (·.Fresh now) = .none := by
      cases hl : c.latest host.hostId with
      | none => rfl
      | some l => simp [Option.filter, hold l hl]
    rw [hnone]
    exact hbehind.matches_of_identifies hstores haccount hhost hid hres

theorem Behind.served {backend : EnsBackend (EnsWorld χ)} (hbehind : Behind backend ens config) {call : EnsCall}
    {w w' : EnsWorld χ} {answer : EnsAnswer} (h : backend.post call w = (.ok answer, w')) :
    answer = (Ens.serve ens config call w).1 ∧ w' = (Ens.serve ens config call w).2 := by
  have hservice := hbehind.post _ _ _ _ h
  exact ⟨(Except.ok.inj (congrArg Prod.fst hservice)).symm, (congrArg Prod.snd hservice).symm⟩

theorem Behind.verdict_of_update {backend : EnsBackend (EnsWorld χ)} (hbehind : Behind backend ens config)
    (hstores : Stores ens resolves) (henabled : settings.ensEnabled = true) {c : Watch (EnsWorld χ)} (hr : Remembers c)
    {host : HostRecord} {account name status : String} (hhost : host.hostId ≠ "")
    (haccount : host.hederaAccountId = .some account) (hname : truthy host.ensName = .some name)
    {t u : EnsState (EnsWorld χ)} (hupdate : updateHost backend name host status c.state = .ok () t) {now : Int}
    {verdict : Bool} (hverify : verifyHost backend settings now host t = .ok verdict u) :
    verdict = ((c.latest host.hostId).filter (·.Fresh now)).elim true Lookup.verdict := by
  obtain ⟨answer, service, hpost, hanswer, hok⟩ | ⟨_, herr⟩ := updateHost_cases backend name host status c.state
  · rw [hok] at hupdate
    obtain rfl := (EStateM.Result.ok.inj hupdate).2
    obtain ⟨rfl, rfl⟩ := hbehind.served hpost
    refine hbehind.verdict_eq hstores henabled hr ?_ host haccount hhost hname ?_ hverify
    · rfl
    · exact Ens.serve_update_identifies hstores rfl haccount rfl hanswer
  · rw [herr] at hupdate
    cases hupdate

theorem Behind.verdict_of_provision {backend : EnsBackend (EnsWorld χ)} (hbehind : Behind backend ens config)
    (hstores : Stores ens resolves) (henabled : settings.ensEnabled = true) {c : Watch (EnsWorld χ)} (hr : Remembers c)
    {host : HostRecord} {account name : String} (haccount : host.hederaAccountId = .some account)
    {t u : EnsState (EnsWorld χ)} (hprovision : provisionHost backend host c.state = .ok name t) {now : Int}
    {verdict : Bool} (hverify : verifyHost backend settings now { host with ensName := .some name } t = .ok verdict u) :
    verdict = ((c.latest host.hostId).filter (·.Fresh now)).elim true Lookup.verdict := by
  obtain ⟨ensName, txHashes, updated, service, hpost, hne, hok⟩ | ⟨_, herr⟩ := provisionHost_cases backend host c.state
  · rw [hok] at hprovision
    obtain ⟨rfl, rfl⟩ := EStateM.Result.ok.inj hprovision
    obtain ⟨hserved, rfl⟩ := hbehind.served hpost
    obtain ⟨hhost, hid⟩ := Ens.serve_provision_identifies config hstores
      (provisionBody host) (HostRecord.identity host account) rfl haccount rfl hserved.symm
    refine hbehind.verdict_eq hstores henabled hr ?_ { host with ensName := .some ensName } haccount hhost
      (truthy_of_ne hne) ?_ hverify
    · rfl
    · exact hid
  · rw [herr] at hprovision
    cases hprovision

/-- A host passes on a lookup of its id. -/
theorem Remembers.passed {c : Watch ω} (hr : Remembers c) (henabled : settings.ensEnabled = true) {host : HostRecord}
    {name : String} (hname : truthy host.ensName = .some name) {t : EnsState ω}
    (hverify : verifyHost backend settings c.clock host c.state = .ok true t) :
    ∃ l ∈ (c.verified backend settings host).lookups, l.host.hostId = host.hostId ∧ l.time ≤ c.clock ∧
      c.clock < l.time + 30 ∧ l.verdict = true := by
  obtain ⟨l, hl, hf, -, hok⟩ | ⟨-, ⟨_, _, -, -, herr⟩ | ⟨record, service, -, hlookup, hok⟩⟩ :=
    hr.verifyHost_cases backend henabled hname c.clock
  · rw [hok] at hverify
    have hmem := List.mem_of_find?_eq_some hl
    have hage : c.clock - l.time < 30 := hf
    exact ⟨l, List.mem_append_right _ hmem, by simpa using List.find?_some hl, hr.past l hmem, by omega,
      (EStateM.Result.ok.inj hverify).1⟩
  · rw [herr] at hverify
    cases hverify
  · rw [hok] at hverify
    exact ⟨⟨c.clock, host, record⟩, by simp [Watch.verified, hlookup], rfl, le_refl _, by simp,
      (EStateM.Result.ok.inj hverify).1⟩

/-- **What a verdict is about.** Without ENS every host passes. With it a host
passes because a lookup of its id, less than thirty seconds ago, resolved the
account, the range and the id that it had then. After a write of what the host
has now, the next verification that returns gives the last verdict while it is
fresh, else it passes. -/
theorem verdict_of_reaches {backend : EnsBackend (EnsWorld χ)} (hbehind : Behind backend ens config)
    (hstores : Stores ens resolves) {c₀ c : Watch (EnsWorld χ)} (hcache : c₀.state.verifyCache = .empty)
    (hnone : c₀.lookups = []) (h : (watching backend settings).Reaches (fun _ _ => True) c₀ c) :
    (settings.ensEnabled = false → ∀ now host, verifyHost backend settings now host c.state = .ok true c.state) ∧
    (settings.ensEnabled = true →
      (∀ host name t, truthy host.ensName = .some name →
        verifyHost backend settings c.clock host c.state = .ok true t →
        ∃ l ∈ (c.verified backend settings host).lookups, l.host.hostId = host.hostId ∧ l.time ≤ c.clock ∧
          c.clock < l.time + 30 ∧ ∃ r, l.record = .some r ∧ r.hederaAccountId = l.host.hederaAccountId ∧
            r.blockIndices = .some l.host.blockIndices ∧ r.hostId = .some l.host.hostId) ∧
      (∀ host name status account t now verdict u, host.hostId ≠ "" → host.hederaAccountId = .some account →
        truthy host.ensName = .some name → updateHost backend name host status c.state = .ok () t →
        verifyHost backend settings now host t = .ok verdict u →
        verdict = ((c.latest host.hostId).filter (·.Fresh now)).elim true Lookup.verdict) ∧
      ∀ host name account t now verdict u, host.hederaAccountId = .some account →
        provisionHost backend host c.state = .ok name t →
        verifyHost backend settings now { host with ensName := .some name } t = .ok verdict u →
        verdict = ((c.latest host.hostId).filter (·.Fresh now)).elim true Lookup.verdict) := by
  have hr := remembers_of_reaches hcache hnone h
  refine ⟨?_, ?_⟩
  · intro hoff now host
    obtain ⟨-, ok, hok, htrue⟩ := verifyHost_idle backend host (.inl hoff) now c.state
    rw [hok, htrue hoff]
  · intro henabled
    refine ⟨?_, ?_, ?_⟩
    · intro host name t hname hverify
      obtain ⟨l, hmem, hhost, hpast, hage, hverdict⟩ := hr.passed henabled hname hverify
      obtain ⟨r, hrecord, hmatches⟩ := (Option.any_eq_true _ _).1 hverdict
      simp only [EnsRecord.matches, decide_eq_true_eq] at hmatches
      exact ⟨l, hmem, hhost, hpast, hage, r, hrecord, hmatches⟩
    · intro host name status account t now verdict u hhost haccount hname hupdate hverify
      exact hbehind.verdict_of_update hstores henabled hr hhost haccount hname hupdate hverify
    · intro host name account t now verdict u haccount hprovision hverify
      exact hbehind.verdict_of_provision hstores henabled hr haccount hprovision hverify

/-! ## Runs against a table -/

theorem stores_tableChain : Stores tableChain fun c name key => c.get? (name, key) where
  getTextRecord _ _ := fun _ _ => ⟨fun _ _ => rfl, rfl⟩
  setRecords name _ _ hnodup := fun c _ => ⟨trivial, fun _ _ h => Ens.get?_setTexts_of_mem hnodup h name c⟩

abbrev TableWatch := Watch (EnsWorld (Dict (String × String) String))

def watchFrom (registry : SwarmRegistry) : TableWatch where
  state := (unwritten registry).1

/-- The mother has its name, and holds `blockIndices`. -/
def motherHolding (blockIndices : String) : HostRecord where
  hostId := "mother"
  role := .mother
  model := "m"
  blockIndices
  layersHosted := 12
  publicIp := .none
  shardManagerUrl := "http://127.0.0.1:8001"
  status := .online
  joinedAt := 0
  lastHeartbeat := 0
  hederaAccountId := .some "0.0.5"
  ensName := .some "mother.blitzwing.eth"

def holding (blockIndices : String) : SwarmRegistry := walleted.updateHost "mother" fun _ => motherHolding blockIndices

/-- The mother is published, and looked up; then a contributor takes its last four layers. -/
def carvedAfterLookup : List (WatchEvent (EnsWorld (Dict (String × String) String))) :=
  [.provision (motherHolding "0:12"), .registry (holding "0:12"), .verify (motherHolding "0:12"),
    .registry (holding "0:8"), .tick 10]

/-- The contributor takes the layers first, and the lookup fails. -/
def carvedBeforeLookup : List (WatchEvent (EnsWorld (Dict (String × String) String))) :=
  [.provision (motherHolding "0:12"), .registry (holding "0:8"), .verify (motherHolding "0:8"), .tick 10]

theorem carved_passes : ∃ c t,
    (watching tableBackend ensOn).run (watchFrom walleted) carvedAfterLookup = .some c ∧
      c.state.registry.hosts.get? "mother" = .some (motherHolding "0:8") ∧
      verifyHost tableBackend ensOn c.clock (motherHolding "0:8") c.state = .ok true t ∧
      ∀ l ∈ (c.verified tableBackend ensOn (motherHolding "0:8")).lookups,
        l.record.all (·.blockIndices ≠ .some "0:8") = true := by
  have hrun : ((watching tableBackend ensOn).run (watchFrom walleted) carvedAfterLookup).any (fun c =>
      decide (c.state.registry.hosts.get? "mother" = .some (motherHolding "0:8")) &&
        ((match verifyHost tableBackend ensOn c.clock (motherHolding "0:8") c.state with
          | .ok ok _ => ok
          | .error _ _ => false) &&
        (c.verified tableBackend ensOn (motherHolding "0:8")).lookups.all fun l =>
          l.record.all (·.blockIndices ≠ .some "0:8"))) = true := by
    decide +kernel
  obtain ⟨c, hc, hcheck⟩ := (Option.any_eq_true _ _).1 hrun
  obtain ⟨hk, hcheck⟩ := Bool.and_eq_true .. ▸ hcheck
  obtain ⟨hverify, hlookups⟩ := Bool.and_eq_true .. ▸ hcheck
  cases hv : verifyHost tableBackend ensOn c.clock (motherHolding "0:8") c.state with
  | error e t => simp [hv] at hverify
  | ok ok t =>
    simp only [hv] at hverify
    subst hverify
    exact ⟨c, t, hc, of_decide_eq_true hk, hv, List.all_eq_true.1 hlookups⟩

theorem written_fails : ∃ c t u,
    (watching tableBackend ensOn).run (watchFrom walleted) carvedBeforeLookup = .some c ∧
      c.state.registry.hosts.get? "mother" = .some (motherHolding "0:8") ∧
      updateHost tableBackend "mother.blitzwing.eth" (motherHolding "0:8") "online" c.state = .ok () t ∧
      verifyHost tableBackend ensOn c.clock (motherHolding "0:8") t = .ok false u := by
  have hrun : ((watching tableBackend ensOn).run (watchFrom walleted) carvedBeforeLookup).any (fun c =>
      decide (c.state.registry.hosts.get? "mother" = .some (motherHolding "0:8")) &&
        match updateHost tableBackend "mother.blitzwing.eth" (motherHolding "0:8") "online" c.state with
        | .error _ _ => false
        | .ok _ t => match verifyHost tableBackend ensOn c.clock (motherHolding "0:8") t with
          | .ok ok _ => !ok
          | .error _ _ => false) = true := by
    decide +kernel
  obtain ⟨c, hc, hcheck⟩ := (Option.any_eq_true _ _).1 hrun
  obtain ⟨hk, hcheck⟩ := Bool.and_eq_true .. ▸ hcheck
  cases hu : updateHost tableBackend "mother.blitzwing.eth" (motherHolding "0:8") "online" c.state with
  | error e t => simp [hu] at hcheck
  | ok a t =>
    simp only [hu] at hcheck
    cases hv : verifyHost tableBackend ensOn c.clock (motherHolding "0:8") t with
    | error e u => simp [hv] at hcheck
    | ok ok u =>
      simp only [hv, Bool.not_eq_true'] at hcheck
      subst hcheck
      exact ⟨c, t, u, hc, of_decide_eq_true hk, hu, hv⟩

/-- The range of no record that was resolved passes, and the range that was just
written fails. -/
theorem stale_verdicts :
    (∃ c host t, (watching tableBackend ensOn).run (watchFrom walleted) carvedAfterLookup = .some c ∧
      c.state.registry.hosts.get? "mother" = .some host ∧ truthy host.ensName = .some "mother.blitzwing.eth" ∧
      verifyHost tableBackend ensOn c.clock host c.state = .ok true t ∧
      ∀ l ∈ (c.verified tableBackend ensOn host).lookups,
        l.record.all (·.blockIndices ≠ .some host.blockIndices) = true) ∧
    ∃ c host t u, (watching tableBackend ensOn).run (watchFrom walleted) carvedBeforeLookup = .some c ∧
      c.state.registry.hosts.get? "mother" = .some host ∧ truthy host.ensName = .some "mother.blitzwing.eth" ∧
      updateHost tableBackend "mother.blitzwing.eth" host "online" c.state = .ok () t ∧
      verifyHost tableBackend ensOn c.clock host t = .ok false u := by
  have hname : truthy (motherHolding "0:8").ensName = .some "mother.blitzwing.eth" := by decide
  constructor
  · obtain ⟨c, t, hc, hk, hverify, hlookups⟩ := carved_passes
    exact ⟨c, _, t, hc, hk, hname, hverify, hlookups⟩
  · obtain ⟨c, t, u, hc, hk, hupdate, hverify⟩ := written_fails
    exact ⟨c, _, t, u, hc, hk, hname, hupdate, hverify⟩

/-- The lookup it passed on, and what an update does not change. -/
theorem verdict_of_reaches_carved :
    (∃ c l r, (watching tableBackend ensOn).run (watchFrom walleted) carvedAfterLookup = .some c ∧
      l ∈ (c.verified tableBackend ensOn (motherHolding "0:8")).lookups ∧ c.clock < l.time + 30 ∧
      l.record = .some r ∧ r.blockIndices = .some l.host.blockIndices) ∧
    ∃ c, (watching tableBackend ensOn).run (watchFrom walleted) carvedBeforeLookup = .some c ∧
      ((c.latest "mother").filter (·.Fresh c.clock)).elim true Lookup.verdict = false := by
  have hreaches : ∀ {es c}, (watching tableBackend ensOn).run (watchFrom walleted) es = .some c →
      (watching tableBackend ensOn).Reaches (fun _ _ => True) (watchFrom walleted) c :=
    fun h => .of_run (fun _ _ _ => trivial) h
  have hname : truthy (motherHolding "0:8").ensName = .some "mother.blitzwing.eth" := by decide
  constructor
  · obtain ⟨c, t, hc, -, hverify, -⟩ := carved_passes
    obtain ⟨-, hon⟩ := verdict_of_reaches (behind_ensBackend _) stores_tableChain rfl rfl (hreaches hc)
    obtain ⟨l, hmem, -, -, hage, r, hrecord, -, hrange, -⟩ := (hon rfl).1 _ _ t hname hverify
    exact ⟨c, l, r, hc, hmem, hage, hrecord, hrange⟩
  · obtain ⟨c, t, u, hc, -, hupdate, hverify⟩ := written_fails
    obtain ⟨-, hon⟩ := verdict_of_reaches (behind_ensBackend _) stores_tableChain rfl rfl (hreaches hc)
    exact ⟨c, hc, ((hon rfl).2.1 _ _ _ "0.0.5" t c.clock false u (by decide) rfl hname hupdate hverify).symm⟩

end Blitzwing.Sync
