/-
The cached runner and the cached chain, against the range of the manager.

`_get_local_runner` compares the runner it has with the range and makes another
if they differ; `_get_http_chain` returns what it has. So a chat between a
`start` on another range and the next reset runs on the old layers
(`chat_during_reload_runs_stale`), and no other request ever does
(`served_current_iff`): the two differ in the one comparison.
-/
import Blitzwing.ShardManager
import Blitzwing.Layers

namespace Blitzwing

/-- Served on the range of the manager: the runner, and the chain if there is one. -/
structure ServedRunner.Current (e : ServedRunner) : Prop where
  runner : spanOf e.blockIndices = .some e.runner.span
  chain : ∀ blocks ∈ e.localBlockIndices, spanOf blocks = spanOf e.blockIndices

namespace Caches

variable {c c' : Caches} {blocks : String}

/-- The cached chain's runner is one for the range it was made on. -/
def Paired (c : Caches) : Prop :=
  ∀ chain ∈ c.httpChain, spanOf chain.localBlockIndices = .some chain.runner.span

theorem paired_reset : reset.Paired := by
  intro chain hchain
  cases hchain

/-! ## The getter that checks -/

/-- What is left of the caches: the runner's staleness costs the chain too. -/
def Dropped (c c' : Caches) : Prop := c'.httpChain = .none ∨ c'.httpChain = c.httpChain

theorem Paired.dropped (h : c.Paired) (hd : c.Dropped c') : c'.Paired := by
  intro chain hchain
  obtain hnone | hsame := hd
  · rw [hnone] at hchain
    cases hchain
  · rw [hsame] at hchain
    exact h chain hchain

theorem spanOf_ofBlocks {runner : LocalShardRunner} (h : LocalShardRunner.ofBlocks blocks = .ok runner) :
    spanOf blocks = .some runner.span := by
  cases hspan : spanOf blocks with
  | none =>
    unfold spanOf at hspan
    split at hspan
    · cases hspan
    · next hraised => simp [LocalShardRunner.ofBlocks, hraised] at h
  | some span =>
    rw [ofBlocks_of_spanOf hspan] at h
    obtain rfl := Except.ok.inj h
    rfl

/-- **The runner that `_get_local_runner` returns is the manager's range**,
whatever was cached; if it raises it may still have dropped the caches. -/
theorem getLocalRunner_spec (c : Caches) (blocks : String) :
    (∃ runner c', getLocalRunner blocks c = .ok runner c' ∧ spanOf blocks = .some runner.span ∧ c.Dropped c') ∨
      ∃ e c', getLocalRunner blocks c = .error e c' ∧ c.Dropped c' := by
  cases hcached : c.localRunner with
  | none =>
    cases hmade : LocalShardRunner.ofBlocks blocks with
    | ok runner =>
      refine .inl ⟨runner, { c with localRunner := .some runner }, ?_, spanOf_ofBlocks hmade, .inr rfl⟩
      simp only [getLocalRunner, hcached, hmade]
    | error e =>
      refine .inr ⟨e, c, ?_, .inr rfl⟩
      simp only [getLocalRunner, hcached, hmade]
  | some runner =>
    by_cases hsame : formatRange runner.blockStart runner.blockEnd = blocks
    · have hspan : spanOf blocks = .some runner.span := by
        rw [← hsame, spanOf_formatRange]
        rfl
      refine .inl ⟨runner, c, ?_, hspan, .inr rfl⟩
      simp only [getLocalRunner, hcached, hsame, ne_eq, not_true_eq_false, if_false]
    · -- stale: both caches are dropped before a new runner is made, whether or not that raises
      cases hmade : LocalShardRunner.ofBlocks blocks with
      | ok new =>
        refine .inl ⟨new, { reset with localRunner := .some new }, ?_, spanOf_ofBlocks hmade, .inl rfl⟩
        simp only [getLocalRunner, hcached, hsame, ne_eq, not_false_eq_true, if_true, reset, hmade]
      | error e =>
        refine .inr ⟨e, reset, ?_, .inl rfl⟩
        simp only [getLocalRunner, hcached, hsame, ne_eq, not_false_eq_true, if_true, reset, hmade]

/-- Whatever comes of it, the chain is dropped or kept. -/
theorem dropped_of_get (hget : (∃ runner, getLocalRunner blocks c = .ok runner c') ∨ ∃ e, getLocalRunner blocks c = .error e c') :
    c.Dropped c' := by
  obtain ⟨runner, d, hd, -, hdropped⟩ | ⟨e, d, hd, hdropped⟩ := getLocalRunner_spec c blocks
  · obtain ⟨runner', h⟩ | ⟨e, h⟩ := hget
    · cases hd.symm.trans h
      exact hdropped
    · cases hd.symm.trans h
  · obtain ⟨runner, h⟩ | ⟨e', h⟩ := hget
    · cases hd.symm.trans h
    · cases hd.symm.trans h
      exact hdropped

/-! ## The getter that does not -/

/-- The chain in the cache was made on another range. -/
def Stale (c : Caches) (blocks : String) : Prop := ∃ chain ∈ c.httpChain, spanOf chain.localBlockIndices ≠ spanOf blocks

instance (c : Caches) (blocks : String) : Decidable (c.Stale blocks) :=
  inferInstanceAs (Decidable (∃ chain ∈ c.httpChain, _))

/-- **The chain that `_get_http_chain` returns is the manager's range** if the
cached one, when there is one, was made on it. -/
theorem getHttpChain_spec (h : c.Paired) (hok : ¬ c.Stale blocks) :
    (∃ chain c', getHttpChain blocks c = .ok chain c' ∧ spanOf blocks = .some chain.runner.span ∧
      spanOf chain.localBlockIndices = spanOf blocks ∧ c'.Paired) ∨
      ∃ e c', getHttpChain blocks c = .error e c' ∧ c'.Paired := by
  cases hcached : c.httpChain with
  | some chain =>
    have hsame : spanOf chain.localBlockIndices = spanOf blocks := by
      by_contra hne
      exact hok ⟨chain, hcached, hne⟩
    have hget : getHttpChain blocks c = .ok chain c := by simp only [getHttpChain, hcached]
    exact .inl ⟨chain, c, hget, hsame ▸ h chain hcached, hsame, h⟩
  | none =>
    obtain ⟨runner, c', hget, hspan, -⟩ | ⟨e, c', hget, hdropped⟩ := getLocalRunner_spec c blocks
    · refine .inl ⟨⟨runner, blocks⟩, { c' with httpChain := .some ⟨runner, blocks⟩ }, ?_, hspan, rfl, ?_⟩
      · simp only [getHttpChain, hcached, hget]
      · intro chain hchain
        obtain rfl := Option.some.inj hchain
        exact hspan
    · refine .inr ⟨e, c', ?_, h.dropped hdropped⟩
      simp only [getHttpChain, hcached, hget]

end Caches

/-- The getter of the shard the conductor talks to is this one on its caches. -/
theorem ShardApp.getLocalRunner_eq (app : ShardApp) :
    app.getLocalRunner = match Caches.getLocalRunner app.blockIndices ⟨app.localRunner, app.httpChain⟩ with
      | .ok runner c => .ok (runner, { app with localRunner := c.localRunner, httpChain := c.httpChain })
      | .error e _ => .error e := by
  obtain ⟨running, blocks, cached, chain⟩ := app
  cases cached with
  | none =>
    simp only [ShardApp.getLocalRunner, Caches.getLocalRunner]
    cases LocalShardRunner.ofBlocks blocks <;> rfl
  | some runner =>
    by_cases hstale : formatRange runner.blockStart runner.blockEnd = blocks
    · simp only [ShardApp.getLocalRunner, Caches.getLocalRunner, hstale, ne_eq, not_true_eq_false, if_false]
      rfl
    · simp only [ShardApp.getLocalRunner, Caches.getLocalRunner, ne_eq, hstale, not_false_eq_true, if_true, Caches.reset,
        ShardApp.resetInferenceCaches]
      cases LocalShardRunner.ofBlocks blocks <;> rfl

/-! ## Runs -/

namespace ShardServer

variable {env : ShardEnv} {s s' : ShardServer}

/-- A chat finds a chain of another range. -/
def FindsStale (s : ShardServer) : ShardLabel → Prop
  | .serve i => s.admitted[i]? = .some true ∧ s.caches.Stale s.manager.blockIndices
  | _ => False

instance (s : ShardServer) : (label : ShardLabel) → Decidable (s.FindsStale label)
  | .serve i => inferInstanceAs (Decidable (s.admitted[i]? = .some true ∧ _))
  | .arrive _ | .proceed _ | .finish _ | .exit _ _ | .askStatus | .enter _ | .warm => inferInstanceAs (Decidable False)

/-- Every request so far was served on the range the manager had. -/
def AllCurrent (s : ShardServer) : Prop := ∀ e ∈ s.served, e.Current

structure Coherent (s : ShardServer) : Prop where
  paired : s.caches.Paired
  served : s.AllCurrent

theorem Coherent.of_same (h : s.Coherent) (hcaches : s'.caches = s.caches) (hserved : s'.served = s.served) :
    s'.Coherent := by
  refine ⟨hcaches ▸ h.paired, ?_⟩
  unfold AllCurrent
  exact hserved ▸ h.served

theorem AllCurrent.append (h : s.AllCurrent) {e : ServedRunner} (he : e.Current) :
    ∀ e' ∈ s.served ++ [e], e'.Current :=
  List.forall_mem_append.2 ⟨h, List.forall_mem_singleton.2 he⟩

theorem coherent_fresh (initialPeers : List String) (blockIndices : String) : (fresh initialPeers blockIndices).Coherent :=
  ⟨Caches.paired_reset, fun _ h => nomatch h⟩

/-- A prefix or a continue is served on the range, whatever is cached. -/
theorem Coherent.serve_hop (h : s.Coherent) : (s.serve false).Coherent := by
  obtain ⟨runner, c', hget, hspan, hdropped⟩ | ⟨e, c', hget, hdropped⟩ :=
    Caches.getLocalRunner_spec s.caches s.manager.blockIndices
  · simp only [serve, Bool.false_eq_true, if_false, hget]
    refine ⟨h.paired.dropped hdropped, h.served.append ⟨hspan, ?_⟩⟩
    intro blocks hblocks
    cases hblocks
  · simp only [serve, Bool.false_eq_true, if_false, hget]
    exact ⟨h.paired.dropped hdropped, h.served⟩

/-- A chat is, if the chain it finds is not stale. -/
theorem Coherent.serve_chat (h : s.Coherent) (hok : ¬ s.caches.Stale s.manager.blockIndices) :
    (s.serve true).Coherent := by
  obtain ⟨chain, c', hget, hrunner, hsame, hpaired⟩ | ⟨e, c', hget, hpaired⟩ := Caches.getHttpChain_spec h.paired hok
  · simp only [serve, if_true, hget]
    refine ⟨hpaired, h.served.append ⟨hrunner, ?_⟩⟩
    intro blocks hblocks
    obtain rfl := Option.some.inj hblocks
    exact hsame
  · simp only [serve, if_true, hget]
    exact ⟨hpaired, h.served⟩

/-- A request of the lifecycle serves nothing, and at most resets the caches. -/
theorem proceed_served {w : Waiting} {next : Option Waiting} (hstep : s.proceed env w = .some (s', next)) :
    s'.served = s.served ∧ (s'.caches = s.caches ∨ s'.caches = .reset) := by
  have hstop : ∀ {after}, proceed.stopThen s after = .some (s', next) → s'.served = s.served ∧ s'.caches = s.caches := by
    intro after h
    unfold proceed.stopThen at h
    repeat' split at h
    all_goals cases h
    all_goals exact ⟨rfl, rfl⟩
  cases w with
  | start blockIndices bootstrap reloading =>
    simp only [ShardServer.proceed, setBlocks] at hstep
    split at hstep
    · cases hstep
    · obtain ⟨rfl, -⟩ := Prod.mk.inj (Option.some.inj hstep)
      cases truthy blockIndices <;> exact ⟨rfl, .inl rfl⟩
  | stop | reloadStop blockIndices => exact (hstop hstep).imp_right .inl
  | reload blockIndices initialPeers | slept blockIndices =>
    obtain ⟨rfl, -⟩ := Prod.mk.inj (Option.some.inj hstep)
    exact ⟨rfl, .inl rfl⟩
  | reset =>
    obtain ⟨rfl, -⟩ := Prod.mk.inj (Option.some.inj hstep)
    exact ⟨rfl, .inr rfl⟩

theorem finish_served {ok : Bool} {holder : Holder} (hstep : s.finish env ok holder = .some s') :
    s'.served = s.served ∧ s'.caches = s.caches := by
  cases holder with
  | starting before bootstrap reloading =>
    simp only [ShardServer.finish] at hstep
    repeat' split at hstep
    all_goals cases hstep
    all_goals exact ⟨rfl, rfl⟩
  | stopping before proc next =>
    simp only [ShardServer.finish] at hstep
    repeat' split at hstep
    all_goals cases hstep
    all_goals exact ⟨rfl, rfl⟩

theorem arrive_served (request : ShardRequest) :
    (s.arrive env request).served = s.served ∧ (s.arrive env request).caches = s.caches := by
  unfold arrive
  repeat' split
  all_goals exact ⟨rfl, rfl⟩

/-- **A step in which no chat finds a stale chain** serves on the range. -/
theorem Coherent.step (h : s.Coherent) {label : ShardLabel} (hok : ¬ s.FindsStale label)
    (hstep : s.step env label = .some s') : s'.Coherent := by
  cases label with
  | arrive request =>
    obtain rfl := Option.some.inj hstep
    exact h.of_same (arrive_served request).2 (arrive_served request).1
  | proceed i =>
    obtain ⟨request, t, next, -, ht, rfl⟩ := step_proceed hstep
    obtain ⟨hserved, hcaches | hcaches⟩ := proceed_served ht
    · exact h.of_same hcaches hserved
    · have hpaired : t.caches.Paired := hcaches ▸ Caches.paired_reset
      refine ⟨hpaired, ?_⟩
      intro e he
      exact h.served e (hserved ▸ he)
  | finish ok =>
    obtain ⟨holder, -, hfinish⟩ := step_finish hstep
    exact h.of_same (finish_served hfinish).2 (finish_served hfinish).1
  | exit proc returncode =>
    obtain ⟨server, -, -, rfl⟩ := step_exit hstep
    exact h.of_same rfl rfl
  | askStatus =>
    obtain rfl := Option.some.inj hstep
    exact h.of_same rfl rfl
  | enter chat =>
    obtain rfl := Option.some.inj hstep
    split <;> exact h.of_same rfl rfl
  | serve i =>
    obtain ⟨chat, hchat, rfl⟩ := step_serve hstep
    cases chat with
    | false => exact h.serve_hop.of_same rfl rfl
    | true =>
      have hfresh : ¬ s.caches.Stale s.manager.blockIndices := fun hstale => hok ⟨hchat, hstale⟩
      exact (h.serve_chat hfresh).of_same rfl rfl
  | warm =>
    obtain ⟨caches, rfl, hget⟩ := step_warm hstep
    exact ⟨h.paired.dropped (Caches.dropped_of_get hget), h.served⟩

/-- **A chat that finds a stale chain** is served on the range it was made on. -/
theorem FindsStale.not_allCurrent {label : ShardLabel} (h : s.FindsStale label)
    (hstep : s.step env label = .some s') : ¬ s'.AllCurrent := by
  cases label with
  | serve i =>
    obtain ⟨hchat, chain, hcached, hne⟩ := h
    obtain ⟨chat, hchat', rfl⟩ := step_serve hstep
    obtain rfl := Option.some.inj (hchat.symm.trans hchat')
    have hcached : s.caches.httpChain = .some chain := hcached
    simp only [AllCurrent, serve, if_true, Caches.getHttpChain, hcached]
    intro hall
    exact hne ((hall _ (List.mem_append_right _ List.mem_cons_self)).chain _ rfl)
  | arrive request | proceed i | finish ok | exit proc returncode | askStatus | enter chat | warm => exact h.elim

/-- **Every request is served on the range the manager has then** in a run none
of whose chats finds a chain that was made on another range; the first chat that
does is served on that other range. -/
theorem served_current_iff {initialPeers : List String} {blockIndices : String}
    (h : (shardMachine env).Reaches (fun s label => ¬ s.FindsStale label) (fresh initialPeers blockIndices) s) :
    s.AllCurrent ∧ ∀ label s', s.FindsStale label → s.step env label = .some s' → ¬ s'.AllCurrent := by
  have hcoherent : s.Coherent :=
    h.invariant (coherent_fresh initialPeers blockIndices) fun hs hok hstep => hs.step hok hstep
  exact ⟨hcoherent.served, fun label s' hstale hstep => hstale.not_allCurrent hstep⟩

/-- A process on `0:4`, a chat, a reload on `4:8` with a prefix between its start
and its reset, and a chat after it. -/
def hopsRun : List ShardLabel :=
  [.arrive .autoStart, .proceed 0, .finish true, .enter true, .serve 0, .arrive (.reload ⟨"4:8", .none⟩), .proceed 0,
    .proceed 0, .exit 0 (-15), .finish true, .proceed 0, .proceed 0, .finish true, .enter false, .serve 0, .proceed 0,
    .enter true, .serve 0]

theorem served_current_iff_hops :
    ∃ s, (shardMachine .contributor).runIf (fun s label => decide (¬ s.FindsStale label)) (fresh [] "0:4") hopsRun = .some s ∧
      s.served.map (·.runner) = [⟨0, 4⟩, ⟨4, 8⟩, ⟨4, 8⟩] ∧ s.AllCurrent := by
  have hrun : ((shardMachine .contributor).runIf (fun s label => decide (¬ s.FindsStale label)) (fresh [] "0:4") hopsRun).any
      fun s => s.served.map (·.runner) = [⟨0, 4⟩, ⟨4, 8⟩, ⟨4, 8⟩] := by decide +kernel
  obtain ⟨s, hs, hserved⟩ := (Option.any_eq_true _ _).1 hrun
  exact ⟨s, hs, of_decide_eq_true hserved,
    (served_current_iff (.of_runIf (fun _ _ _ h => of_decide_eq_true h) hs)).1⟩

/-- **A chat in the middle of a reload** runs on the old layers: the process is
on `4:8`, the caches are not reset yet. And so does one after a `/stop` and a
`/start` on `4:8`, which reset nothing. -/
theorem chat_during_reload_runs_stale :
    (∃ s, (shardMachine .contributor).run (fresh [] "0:4") [.arrive .autoStart, .proceed 0, .finish true, .enter true, .serve 0,
        .arrive (.reload ⟨"4:8", .none⟩), .proceed 0, .proceed 0, .exit 0 (-15), .finish true, .proceed 0, .proceed 0,
        .finish true, .enter true, .serve 0] = .some s ∧
      s.served = [⟨"0:4", ⟨0, 4⟩, .some "0:4"⟩, ⟨"4:8", ⟨0, 4⟩, .some "0:4"⟩] ∧ ¬ s.AllCurrent) ∧
    ∃ s, (shardMachine .contributor).run (fresh [] "0:4") [.arrive .autoStart, .proceed 0, .finish true, .enter true, .serve 0,
        .arrive .stop, .proceed 0, .exit 0 (-15), .finish true, .arrive (.start (.some ⟨"4:8", .none⟩)), .proceed 0,
        .finish true, .enter true, .serve 0] = .some s ∧
      s.served = [⟨"0:4", ⟨0, 4⟩, .some "0:4"⟩, ⟨"4:8", ⟨0, 4⟩, .some "0:4"⟩] ∧ ¬ s.AllCurrent := by
  have hstale : ¬ ServedRunner.Current ⟨"4:8", ⟨0, 4⟩, .some "0:4"⟩ := fun h => absurd h.runner (by decide +kernel)
  refine ⟨⟨_, rfl, by decide +kernel, ?_⟩, ⟨_, rfl, by decide +kernel, ?_⟩⟩
  all_goals
    intro hall
    exact hstale (hall _ (by decide +kernel))

end ShardServer

end Blitzwing
