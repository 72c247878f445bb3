/-
The range a shard manager reports, against the command line of its process.

`start` stores the range before it asks whether a process runs. A request with
another range is refused then, but the range stays: from there on the manager
reports layers its process does not have (`refused_start_reports_other_layers`).
This is the one way: while no such request takes the lock the report is right,
and the first that does makes it wrong (`reported_iff_moves`).
-/
import Blitzwing.ShardManager

namespace Blitzwing

/-- An error left the range alone, if the process that was there still runs. -/
def ErrorAnswer.Kept (a : ErrorAnswer) : Prop := a.keepsRunning = true → a.after = a.before

/-- The range a request stores next. -/
def Waiting.stores : Waiting → Option String
  | .start blockIndices _ _ => truthy blockIndices
  | _ => .none

namespace ShardServer

variable {env : ShardEnv} {s s' : ShardServer}

/-- Whenever the status says running, its range is the one on the command line. -/
def Truthful (env : ShardEnv) (s : ShardServer) : Prop :=
  (s.status env).running = true → ∃ server, s.current = .some server ∧
    cmdBlocks server.cmd = .some (s.status env).blockIndices

/-- The step stores another range while a process runs. -/
def Moves (s : ShardServer) : ShardLabel → Prop
  | .proceed i => s.running = true ∧ ∃ request ∈ s.waiting[i]?, ∃ blocks ∈ request.stores,
    blocks ≠ s.manager.blockIndices
  | _ => False

instance (s : ShardServer) : (label : ShardLabel) → Decidable (s.Moves label)
  | .proceed i => inferInstanceAs (Decidable (_ ∧ ∃ request ∈ s.waiting[i]?, ∃ blocks ∈ request.stores, _ ≠ _))
  | .arrive _ | .finish _ | .exit _ _ | .askStatus | .enter _ | .serve _ | .warm => inferInstanceAs (Decidable False)

/-! ## What the report depends on -/

/-- The parts of the state a report is made of, and what is known of errors. -/
structure SameReport (s s' : ShardServer) : Prop where
  blockIndices : s'.manager.blockIndices = s.manager.blockIndices
  proc : s'.manager.proc = s.manager.proc
  servers : s'.servers = s.servers
  holder : s'.holder = s.holder
  errors : s'.errors = s.errors

theorem SameReport.current (h : SameReport s s') : s'.current = s.current := by
  rw [ShardServer.current, ShardServer.current, h.proc, h.servers]

theorem SameReport.running (h : SameReport s s') : s'.running = s.running := by
  rw [ShardServer.running, ShardServer.running, h.current]

/-- What the holder of the lock noted is still so, if a process runs. -/
def HolderFits (s : ShardServer) : Holder → Prop
  | .starting before _ _ => s.running = true → s.manager.blockIndices = before
  | .stopping before _ _ => s.manager.blockIndices = before

/-- A manager whose report is right, and whose errors were. -/
structure Reporting (s : ShardServer) : Prop where
  truthful : ∀ server, s.current = .some server → server.returncode = .none →
    cmdBlocks server.cmd = .some s.manager.blockIndices
  holder : ∀ h ∈ s.holder, s.HolderFits h
  errors : ∀ a ∈ s.errors, ErrorAnswer.Kept a

theorem running_iff : s.running = true ↔ ∃ server, s.current = .some server ∧ server.returncode = .none := by
  rw [running]
  cases s.current <;> simp

theorem Reporting.status (h : s.Reporting) (env : ShardEnv) : s.Truthful env := by
  intro hrunning
  obtain ⟨server, hcurrent, halive⟩ := running_iff.1 hrunning
  exact ⟨server, hcurrent, h.truthful server hcurrent halive⟩

theorem Reporting.of_same (h : s.Reporting) (hs : SameReport s s') : s'.Reporting where
  truthful := by
    rw [hs.current, hs.blockIndices]
    exact h.truthful
  holder := by
    intro holder hmem
    have hfits := h.holder holder (hs.holder ▸ hmem)
    unfold HolderFits at *
    rwa [hs.blockIndices, hs.running]
  errors := by
    rw [hs.errors]
    exact h.errors

theorem reporting_fresh (initialPeers : List String) (blockIndices : String) :
    (fresh initialPeers blockIndices).Reporting where
  truthful := by simp [fresh, ShardServer.current]
  holder := by simp [fresh]
  errors := by simp [fresh]

/-- A manager without a process reports nothing wrong. -/
theorem reporting_of_idle (hidle : s.current = .none) (hholder : s.holder = .none)
    (herrors : ∀ a ∈ s.errors, a.Kept) : s.Reporting where
  truthful := by simp [hidle]
  holder := by simp [hholder]
  errors := herrors

theorem errors_append {errors : List ErrorAnswer} (h : ∀ a ∈ errors, a.Kept) {a : ErrorAnswer} (ha : a.Kept) :
    ∀ b ∈ errors ++ [a], b.Kept :=
  List.forall_mem_append.2 ⟨h, List.forall_mem_singleton.2 ha⟩

/-! ## Taking the lock -/

theorem setBlocks_eq (blockIndices : Option String) : s.setBlocks blockIndices =
    { s with manager := { s.manager with blockIndices := (truthy blockIndices).getD s.manager.blockIndices } } := by
  unfold setBlocks
  cases truthy blockIndices <;> rfl

/-- `start` takes the lock, with the range of the process if one runs. -/
theorem Reporting.start (h : s.Reporting) {blockIndices : Option String}
    (hok : s.running = true → ∀ blocks ∈ truthy blockIndices, blocks = s.manager.blockIndices)
    (bootstrap reloading : Bool) :
    Reporting { s.setBlocks blockIndices with
      holder := .some (.starting s.manager.blockIndices bootstrap reloading) } := by
  rw [setBlocks_eq]
  have hsame : s.running = true → (truthy blockIndices).getD s.manager.blockIndices = s.manager.blockIndices := by
    intro hrunning
    cases hb : truthy blockIndices with
    | none => rfl
    | some blocks => exact hok hrunning blocks hb
  refine ⟨?_, ?_, h.errors⟩
  · intro server hcurrent halive
    have hold := h.truthful server hcurrent halive
    rwa [← hsame (running_iff.2 ⟨server, hcurrent, halive⟩)] at hold
  · intro holder hmem
    obtain rfl := Option.some.inj hmem
    exact hsame

/-- `stop` takes the lock. -/
theorem Reporting.stopThen (h : s.Reporting) {next : Option String} {w : Option Waiting}
    (hstep : proceed.stopThen s next = .some (s', w)) : s'.Reporting := by
  unfold proceed.stopThen at hstep
  split at hstep
  · cases hstep
  next hfree =>
  have hholder : s.holder = .none := by simpa using hfree
  split at hstep
  · split at hstep
    · obtain ⟨rfl, -⟩ := Prod.mk.inj (Option.some.inj hstep)
      refine ⟨h.truthful, ?_, h.errors⟩
      intro holder hmem
      obtain rfl := Option.some.inj hmem
      rfl
    · obtain ⟨rfl, -⟩ := Prod.mk.inj (Option.some.inj hstep)
      exact reporting_of_idle rfl hholder h.errors
  · obtain ⟨rfl, -⟩ := Prod.mk.inj (Option.some.inj hstep)
    exact h

/-- **A request goes on**, with the lock or without it. -/
theorem Reporting.proceed (h : s.Reporting) {request : Waiting}
    (hok : s.running = true → ∀ blocks ∈ request.stores, blocks = s.manager.blockIndices)
    {w : Option Waiting} (hstep : s.proceed env request = .some (s', w)) : s'.Reporting := by
  cases request with
  | start blockIndices bootstrap reloading =>
    simp only [ShardServer.proceed] at hstep
    split at hstep
    · cases hstep
    · obtain ⟨rfl, -⟩ := Prod.mk.inj (Option.some.inj hstep)
      exact h.start hok bootstrap reloading
  | stop | reloadStop blockIndices => exact h.stopThen hstep
  | reload blockIndices initialPeers | slept blockIndices | reset =>
    obtain ⟨rfl, -⟩ := Prod.mk.inj (Option.some.inj hstep)
    exact h.of_same ⟨rfl, rfl, rfl, rfl, rfl⟩

/-! ## Letting go of it -/

/-- A spawned process is the manager's, on its range. -/
theorem current_spawn (bootstrap : Bool) : ∃ useBootstrap, (s.spawn env bootstrap).current =
    .some ⟨buildCmd env s.manager.initialPeers s.manager.blockIndices useBootstrap, .none⟩ := by
  simp [ShardServer.current, spawn]

/-- **The holder of the lock lets go of it.** -/
theorem Reporting.finish (h : s.Reporting) {holder : Holder} (hholder : s.holder = .some holder) {ok : Bool}
    (hstep : s.finish env ok holder = .some s') : s'.Reporting := by
  have hfits := h.holder holder hholder
  cases holder with
  | starting before bootstrap reloading =>
    simp only [ShardServer.finish] at hstep
    split at hstep
    · next hrunning =>
      obtain rfl := Option.some.inj hstep
      exact ⟨h.truthful, by simp, errors_append h.errors fun _ => hfits hrunning⟩
    · split at hstep
      · obtain rfl := Option.some.inj hstep
        refine ⟨?_, by simp [spawn], h.errors⟩
        intro server hcurrent _
        obtain ⟨useBootstrap, hspawn⟩ := @current_spawn env { s with holder := .none } bootstrap
        obtain rfl := Option.some.inj (hspawn.symm.trans hcurrent)
        exact cmdBlocks_buildCmd env _ _ _
      · obtain rfl := Option.some.inj hstep
        exact ⟨h.truthful, by simp, errors_append h.errors (by simp [ErrorAnswer.Kept])⟩
  | stopping before proc next =>
    simp only [ShardServer.finish] at hstep
    split at hstep
    · split at hstep
      · cases hstep
      · obtain rfl := Option.some.inj hstep
        exact reporting_of_idle rfl rfl h.errors
    · obtain rfl := Option.some.inj hstep
      exact reporting_of_idle rfl rfl (errors_append h.errors fun _ => hfits)

/-! ## Exits -/

/-- An exit of a process leaves the others. -/
theorem current_exit {proc : Nat} {server : PetalsServer} (code : Int) {server' : PetalsServer}
    (hcurrent : current { s with servers := s.servers.set proc { server with returncode := .some code } } = .some server')
    (halive : server'.returncode = .none) : s.current = .some server' := by
  unfold ShardServer.current at *
  obtain ⟨p, hp, hserver⟩ := Option.bind_eq_some_iff.1 hcurrent
  rw [show s.manager.proc = .some p from hp, Option.bind_some]
  rw [List.getElem?_set] at hserver
  split at hserver
  · split at hserver
    · obtain rfl := Option.some.inj hserver
      cases halive
    · cases hserver
  · exact hserver

theorem Reporting.exit (h : s.Reporting) (proc : Nat) (server : PetalsServer) (code : Int) :
    Reporting { s with servers := s.servers.set proc { server with returncode := .some code } } := by
  have hrunning : running { s with servers := s.servers.set proc { server with returncode := .some code } } = true →
      s.running = true := by
    intro hr
    obtain ⟨server', hcurrent, halive⟩ := running_iff.1 hr
    exact running_iff.2 ⟨server', current_exit code hcurrent halive, halive⟩
  refine ⟨?_, ?_, h.errors⟩
  · intro server' hcurrent halive
    exact h.truthful server' (current_exit code hcurrent halive) halive
  · intro holder hmem
    have hfits := h.holder holder hmem
    cases holder with
    | starting before bootstrap reloading => exact fun hr => hfits (hrunning hr)
    | stopping before proc next => exact hfits

/-! ## Every step -/

theorem arrive_same (request : ShardRequest) : SameReport s (s.arrive env request) ∨ s.arrive env request = s.refuse := by
  unfold arrive
  repeat' split
  all_goals first | exact .inr rfl | exact .inl ⟨rfl, rfl, rfl, rfl, rfl⟩

theorem serve_same (chat : Bool) : SameReport s (s.serve chat) := by
  unfold serve
  simp only
  repeat' split
  all_goals exact ⟨rfl, rfl, rfl, rfl, rfl⟩

/-- **A step that does not move the range** keeps the report right. -/
theorem Reporting.step (h : s.Reporting) {label : ShardLabel} (hok : ¬ s.Moves label)
    (hstep : s.step env label = .some s') : s'.Reporting := by
  cases label with
  | arrive request =>
    obtain rfl := Option.some.inj hstep
    obtain hsame | hrefused := @arrive_same env s request
    · exact h.of_same hsame
    · rw [hrefused]
      exact ⟨h.truthful, h.holder, errors_append h.errors fun _ => rfl⟩
  | proceed i =>
    obtain ⟨request, t, next, hget, ht, rfl⟩ := step_proceed hstep
    have hproceed : t.Reporting := by
      refine h.proceed ?_ ht
      intro hrunning blocks hblocks
      by_contra hne
      exact hok ⟨hrunning, request, hget, blocks, hblocks, hne⟩
    exact hproceed.of_same ⟨rfl, rfl, rfl, rfl, rfl⟩
  | finish ok =>
    obtain ⟨holder, hholder, hfinish⟩ := step_finish hstep
    exact h.finish hholder hfinish
  | exit proc returncode =>
    obtain ⟨server, -, -, rfl⟩ := step_exit hstep
    exact h.exit proc server returncode
  | askStatus =>
    obtain rfl := Option.some.inj hstep
    exact h.of_same ⟨rfl, rfl, rfl, rfl, rfl⟩
  | enter chat =>
    obtain rfl := Option.some.inj hstep
    split <;> exact h.of_same ⟨rfl, rfl, rfl, rfl, rfl⟩
  | serve i =>
    obtain ⟨chat, -, rfl⟩ := step_serve hstep
    have hserve := h.of_same (serve_same chat)
    exact hserve.of_same ⟨rfl, rfl, rfl, rfl, rfl⟩
  | warm =>
    obtain ⟨caches, rfl, -⟩ := step_warm hstep
    exact h.of_same ⟨rfl, rfl, rfl, rfl, rfl⟩

/-- **A step that moves the range** makes the report wrong. -/
theorem Reporting.not_truthful (h : s.Reporting) {label : ShardLabel} (hmoves : s.Moves label)
    (hstep : s.step env label = .some s') : ¬ s'.Truthful env := by
  cases label with
  | proceed i =>
    obtain ⟨hrunning, request, hget, blocks, hblocks, hne⟩ := hmoves
    obtain ⟨server, hcurrent, halive⟩ := running_iff.1 hrunning
    obtain ⟨request', t, next, hrequest, ht, rfl⟩ := step_proceed hstep
    obtain rfl := Option.some.inj (hget.symm.trans hrequest)
    cases request with
    | start blockIndices bootstrap reloading =>
      simp only [ShardServer.proceed, setBlocks_eq] at ht
      split at ht
      · cases ht
      · obtain ⟨rfl, rfl⟩ := Prod.mk.inj (Option.some.inj ht)
        intro htruthful
        obtain ⟨server', hcurrent', hcmd⟩ := htruthful (running_iff.2 ⟨server, hcurrent, halive⟩)
        obtain rfl := Option.some.inj (hcurrent.symm.trans hcurrent')
        have hrange : cmdBlocks server.cmd = .some ((truthy blockIndices).getD s.manager.blockIndices) := hcmd
        rw [h.truthful server hcurrent halive, show truthy blockIndices = .some blocks from hblocks,
          Option.getD_some] at hrange
        exact hne (Option.some.inj hrange).symm
    | stop | reload blockIndices initialPeers | reloadStop blockIndices | slept blockIndices | reset => cases hblocks
  | arrive request | finish ok | exit proc returncode | askStatus | enter chat | serve i | warm => exact hmoves.elim

/-- **A shard manager reports the range it serves** in every state of a run
none of whose steps stores another range while a process runs, and no error has
changed what it reports of a process that still runs; the first step that does
store one makes the report wrong. -/
theorem reported_iff_moves {initialPeers : List String} {blockIndices : String}
    (h : (shardMachine env).Reaches (fun s label => ¬ s.Moves label) (fresh initialPeers blockIndices) s) :
    (s.Truthful env ∧ ∀ a ∈ s.errors, a.Kept) ∧
      ∀ label s', s.Moves label → s.step env label = .some s' → ¬ s'.Truthful env := by
  have hreporting : s.Reporting :=
    h.invariant (reporting_fresh initialPeers blockIndices) fun hs hok hstep => hs.step hok hstep
  exact ⟨⟨hreporting.status env, hreporting.errors⟩, fun label s' hmoves hstep => hreporting.not_truthful hmoves hstep⟩

/-- A process on `0:4`, then a reload on `4:8` that goes through. -/
def reloadRun : List ShardLabel :=
  [.arrive .autoStart, .proceed 0, .finish true, .arrive (.reload ⟨"4:8", .none⟩), .proceed 0, .proceed 0, .exit 0 (-15),
    .finish true, .proceed 0, .proceed 0, .finish true, .proceed 0]

theorem reported_iff_moves_reload :
    ∃ s, (shardMachine .contributor).runIf (fun s label => decide (¬ s.Moves label)) (fresh [] "0:4") reloadRun = .some s ∧
      (s.status .contributor).blockIndices = "4:8" ∧ s.Truthful .contributor := by
  have hrun : ((shardMachine .contributor).runIf (fun s label => decide (¬ s.Moves label)) (fresh [] "0:4")
      reloadRun).any fun s => (s.status .contributor).blockIndices = "4:8" := by decide +kernel
  obtain ⟨s, hs, hblocks⟩ := (Option.any_eq_true _ _).1 hrun
  exact ⟨s, hs, of_decide_eq_true hblocks,
    (reported_iff_moves (.of_runIf (fun _ _ _ h => of_decide_eq_true h) hs)).1.1⟩

/-- **A refused start moves the range.** The process runs on `0:4`; a `/start`
for `4:8` is answered with an error, and `4:8` is what the status says then. -/
theorem refused_start_reports_other_layers :
    ∃ s, (shardMachine .contributor).run (fresh [] "0:4") [.arrive .autoStart, .proceed 0, .finish true,
        .arrive (.start (.some ⟨"4:8", .none⟩)), .proceed 0, .finish true] = .some s ∧
      (s.status .contributor).running = true ∧ (s.status .contributor).blockIndices = "4:8" ∧
      s.current.bind (cmdBlocks ·.cmd) = .some "0:4" ∧ s.errors = [⟨"0:4", "4:8", true⟩] ∧
      ¬ (s.Truthful .contributor ∧ ∀ a ∈ s.errors, a.Kept) := by
  refine ⟨_, rfl, by decide +kernel, by decide +kernel, by decide +kernel, by decide +kernel, ?_⟩
  intro h
  exact absurd (h.2 ⟨"0:4", "4:8", true⟩ List.mem_cons_self rfl) (by decide)

end ShardServer

end Blitzwing
