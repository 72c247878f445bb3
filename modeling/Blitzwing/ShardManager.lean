/-
`ShardManager` of `shard_manager/app.py` and the requests that drive it, with
the caches its endpoints share.

`start` and `stop` run under the manager's lock, `reload` is one after the other
with the lock free in between. A request is where it waits (`Waiting`) or has
the lock (`Holder`): between taking it and letting go of it a Petals process can
exit, another thread can ask for the status or for a runner, and nothing else
can happen to the manager. `shardMachine` takes these steps in any order.

What the operating system answers is part of the step: a spawn or a stop that
succeeds or raises. Waiting times, process ids and logging are left out; a
process is known by its place among those spawned.
-/
import Blitzwing.Lib.Machine
import Blitzwing.ShardApp

namespace Blitzwing

/-- What the constructor reads from the environment and nothing changes. -/
structure ShardEnv where
  model : String := "HuggingFaceTB/SmolLM2-360M-Instruct"
  publicIp : Option String := .none
  port : Int := 31337
  identityPath : String
  device : String := "cpu"
  quantType : String := "none"
  numHandlers : Int := 1
  python : String := "python"
  announceMaddrs : List String := []
  newSwarm : Bool := false
  petalsUseAutoRelay : Option String := .none
  skipReachabilityCheck : Bool := true
  blitzwingHttpOnly : Option String := .none
deriving DecidableEq, Repr

/-- A contributor's manager, as its environment leaves it. -/
def ShardEnv.contributor : ShardEnv where
  identityPath := "/root/.blitzwing/petals-identity"

/-- NAT contributors default to libp2p auto-relay; explicit announce disables it. -/
def ShardEnv.useAutoRelay (env : ShardEnv) : Bool :=
  match env.petalsUseAutoRelay with
  | .some raw => raw ∉ ["0", "false", "False", "no"]
  | .none => if env.announceMaddrs ≠ [] then false else !env.newSwarm

/-- `subprocess.Popen`; `returncode` is what `poll` returns. -/
structure PetalsServer where
  cmd : List String
  returncode : Option Int := .none
deriving DecidableEq, Repr

structure ShardManager where
  initialPeers : List String := []
  blockIndices : String := "0:22"
  /-- `_proc`, as its place among the processes spawned. -/
  proc : Option Nat := .none
  lastExitCode : Option Int := .none
  bootstrapped : Bool := false
deriving DecidableEq, Repr

def buildCmd (env : ShardEnv) (initialPeers : List String) (blockIndices : String) (bootstrap : Bool) : List String :=
  [env.python, "-m", "petals.cli.run_server", env.model, "--device", env.device, "--quant_type", env.quantType,
    "--block_indices", blockIndices, "--port", toString env.port, "--identity_path", env.identityPath,
    "--num_handlers", toString env.numHandlers] ++
  -- Prefer explicit announce list (local + ngrok) over a single PUBLIC_IP.
  (if env.announceMaddrs ≠ [] then "--announce_maddrs" :: env.announceMaddrs
    else match truthy env.publicIp with
      | .some publicIp => ["--public_ip", publicIp]
      | .none => []) ++
  (if bootstrap && env.newSwarm then ["--new_swarm"]
    else if initialPeers ≠ [] ∧ (truthy env.blitzwingHttpOnly).isNone then "--initial_peers" :: initialPeers
    else []) ++
  (if env.useAutoRelay then [] else ["--no_auto_relay"]) ++
  if env.skipReachabilityCheck then ["--skip_reachability_check"] else []

/-- The range on a command line. -/
def cmdBlocks (cmd : List String) : Option String :=
  match cmd.drop 8 with
  | "--block_indices" :: blocks :: _ => .some blocks
  | _ => .none

theorem cmdBlocks_buildCmd (env : ShardEnv) (initialPeers : List String) (blockIndices : String) (bootstrap : Bool) :
    cmdBlocks (buildCmd env initialPeers blockIndices bootstrap) = .some blockIndices := rfl

/-! ## The caches -/

/-- `_local_runner` and `_http_chain` -/
structure Caches where
  localRunner : Option LocalShardRunner := .none
  httpChain : Option HttpChainInference := .none
deriving DecidableEq, Repr

namespace Caches

/-- `_reset_inference_caches` -/
def reset : Caches := {}

/-- `_get_local_runner`; stale caches are dropped even if the new runner raises. -/
def getLocalRunner (blocks : String) : EStateM ChainError Caches LocalShardRunner := fun caches =>
  let caches :=
    match caches.localRunner with
    | .some runner => if formatRange runner.blockStart runner.blockEnd ≠ blocks then reset else caches
    | .none => caches
  match caches.localRunner with
  | .some runner => .ok runner caches
  | .none =>
    match LocalShardRunner.ofBlocks blocks with
    | .ok runner => .ok runner { caches with localRunner := .some runner }
    | .error e => .error e caches

/-- `_get_http_chain` -/
def getHttpChain (blocks : String) : EStateM ChainError Caches HttpChainInference := fun caches =>
  match caches.httpChain with
  | .some chain => .ok chain caches
  | .none =>
    match getLocalRunner blocks caches with
    | .ok runner caches =>
      let chain := { runner, localBlockIndices := blocks }
      .ok chain { caches with httpChain := .some chain }
    | .error e caches => .error e caches

end Caches

/-! ## Requests -/

/-- `ReloadRequest`, before its pattern is checked. -/
structure ReloadBody where
  blockIndices : String
  initialPeers : Option (List String) := .none
deriving DecidableEq, Repr

/-- `^\d+:\d+$` -/
def ReloadBody.valid (body : ReloadBody) : Bool :=
  match PyText.split body.blockIndices ':' with
  | [start, «end»] => [start, «end»].all fun s => !s.toList.isEmpty && s.toList.all fun c => (PyText.decimal? c).isSome
  | _ => false

inductive ShardRequest
  /-- The start of the application. -/
  | autoStart
  | start (body : Option ReloadBody)
  | stop
  | reload (body : ReloadBody)
deriving DecidableEq, Repr

/-- A request without the lock, and what it does next. -/
inductive Waiting
  | start (blockIndices : Option String) (bootstrap reloading : Bool)
  | stop
  | reload (blockIndices : String) (initialPeers : Option (List String))
  | reloadStop (blockIndices : String)
  /-- Stopped and slept. -/
  | slept (blockIndices : String)
  /-- Started: the caches are next. -/
  | reset
deriving DecidableEq, Repr

/-- The request with the lock, and the range that was reported before it. -/
inductive Holder
  | starting (before : String) (bootstrap reloading : Bool)
  /-- With the range a reload goes on to. -/
  | stopping (before : String) (proc : Nat) (next : Option String)
deriving DecidableEq, Repr

/-- An answer that is an error: the ranges reported before and after it, and
whether the process that was there before still runs. -/
structure ErrorAnswer where
  before : String
  after : String
  keepsRunning : Bool
deriving DecidableEq, Repr

/-- What an inference request was served with: the range of the manager when it
asked, the runner, and for a chat the range of its chain. -/
structure ServedRunner where
  blockIndices : String
  runner : LocalShardRunner
  localBlockIndices : Option String := .none
deriving DecidableEq, Repr

structure ShardServer where
  manager : ShardManager
  servers : List PetalsServer := []
  waiting : List Waiting := []
  holder : Option Holder := .none
  caches : Caches := {}
  /-- Inference requests past their check of the process; a chat is `true`. -/
  admitted : List Bool := []
  errors : List ErrorAnswer := []
  served : List ServedRunner := []
deriving DecidableEq, Repr

namespace ShardServer

variable (env : ShardEnv) (s : ShardServer)

/-- The manager's process, if it has one. -/
def current : Option PetalsServer := s.manager.proc.bind (s.servers[·]?)

/-- `self._proc and self._proc.poll() is None` -/
def running : Bool := s.current.any (·.returncode.isNone)

structure StatusResponse where
  running : Bool
  pid : Option Nat
  blockIndices : String
  model : String
  publicIp : Option String
  port : Int
  lastExitCode : Option Int
  identityPath : String
  initialPeers : List String
  newSwarm : Bool
deriving DecidableEq, Repr

/-- What `status` notes of a process that is gone. -/
def notedExit : Option Int :=
  if s.running then s.manager.lastExitCode
  else match s.current with
    | .some server => server.returncode
    | .none => s.manager.lastExitCode

def status : StatusResponse where
  running := s.running
  pid := if s.running then s.manager.proc else .none
  blockIndices := s.manager.blockIndices
  model := env.model
  publicIp := env.publicIp
  port := env.port
  lastExitCode := s.notedExit
  identityPath := env.identityPath
  initialPeers := s.manager.initialPeers
  newSwarm := env.newSwarm

/-- An answer that is an error and changed nothing. -/
def refuse : ShardServer :=
  { s with errors := s.errors ++ [⟨s.manager.blockIndices, s.manager.blockIndices, s.running⟩] }

/-- What an endpoint does before it asks the manager. -/
def arrive : ShardRequest → ShardServer
  | .autoStart => { s with waiting := s.waiting ++ [.start .none env.newSwarm false] }
  | .start .none => { s with waiting := s.waiting ++ [.start .none false false] }
  | .start (.some body) =>
    if body.valid then { s with waiting := s.waiting ++ [.start (.some body.blockIndices) false false] } else s.refuse
  | .stop => { s with waiting := s.waiting ++ [.stop] }
  | .reload body =>
    if body.valid then
      match parseRange body.blockIndices with
      | .ok (start, «end») =>
        if «end» ≤ start then s.refuse
        else { s with waiting := s.waiting ++ [.reload body.blockIndices body.initialPeers] }
      | .error _ => s.refuse
    else s.refuse

/-- `self.block_indices = block_indices`, if one is given. -/
def setBlocks (blockIndices : Option String) : ShardServer :=
  match truthy blockIndices with
  | .some blocks => { s with manager := { s.manager with blockIndices := blocks } }
  | .none => s

/-- The next step of a request without the lock, and where it waits after it; a
step that takes the lock waits until it is free. -/
def proceed : Waiting → Option (ShardServer × Option Waiting)
  | .start blockIndices bootstrap reloading =>
    if s.holder.isSome then .none
    else
      .some ({ s.setBlocks blockIndices with
        holder := .some (.starting s.manager.blockIndices bootstrap reloading) }, .none)
  | .stop => stopThen .none
  | .reload blockIndices initialPeers =>
    let peers := initialPeers.getD s.manager.initialPeers
    .some ({ s with manager := { s.manager with initialPeers := peers } }, .some (.reloadStop blockIndices))
  | .reloadStop blockIndices => stopThen (.some blockIndices)
  | .slept blockIndices =>
    -- Mother swarms must re-bootstrap after stop.
    let bootstrapped := if env.newSwarm then false else s.manager.bootstrapped
    .some ({ s with manager := { s.manager with bootstrapped } }, .some (.start (.some blockIndices) env.newSwarm true))
  | .reset => .some ({ s with caches := .reset }, .none)
where
  /-- `stop` takes the lock: it returns at once, or waits for the process. -/
  stopThen (next : Option String) : Option (ShardServer × Option Waiting) :=
    if s.holder.isSome then .none
    else
      match s.manager.proc with
      | .some proc =>
        if s.running then
          .some ({ s with holder := .some (.stopping s.manager.blockIndices proc next) }, .none)
        else .some ({ s with manager := { s.manager with proc := .none } }, next.map .slept)
      | .none => .some (s, next.map .slept)

/-- `subprocess.Popen` and what `start` sets after it. -/
def spawn (bootstrap : Bool) : ShardServer :=
  let useBootstrap := bootstrap || (env.newSwarm && !s.manager.bootstrapped)
  let cmd := buildCmd env s.manager.initialPeers s.manager.blockIndices useBootstrap
  { s with
    servers := s.servers ++ [{ cmd }]
    manager := { s.manager with proc := .some s.servers.length, lastExitCode := .none, bootstrapped := true } }

/-- The holder of the lock does the rest and lets go of it. `ok` says whether
the spawn, or the stop, goes through: a stop does once the process is gone. -/
def finish (ok : Bool) : Holder → Option ShardServer
  | .starting before bootstrap reloading =>
    let s := { s with holder := .none }
    if s.running then .some { s with errors := s.errors ++ [⟨before, s.manager.blockIndices, true⟩] }
    else if ok then
      .some { s.spawn env bootstrap with waiting := if reloading then s.waiting ++ [.reset] else s.waiting }
    else .some { s with errors := s.errors ++ [⟨before, s.manager.blockIndices, false⟩] }
  | .stopping before proc next =>
    let returncode := s.servers[proc]?.bind (·.returncode)
    let s := { s with holder := .none, manager := { s.manager with proc := .none, lastExitCode := returncode } }
    if ok then
      if returncode.isNone then .none else .some { s with waiting := s.waiting ++ (next.map .slept).toList }
    else .some { s with errors := s.errors ++ [⟨before, s.manager.blockIndices, returncode.isNone⟩] }

/-- An inference request obtains its runner; where that raises it is served nothing. -/
def serve (chat : Bool) : ShardServer :=
  let blocks := s.manager.blockIndices
  if chat then
    match s.caches.getHttpChain blocks with
    | .ok chain caches => { s with caches, served := s.served ++ [⟨blocks, chain.runner, .some chain.localBlockIndices⟩] }
    | .error _ caches => { s with caches }
  else
    match s.caches.getLocalRunner blocks with
    | .ok runner caches => { s with caches, served := s.served ++ [⟨blocks, runner, .none⟩] }
    | .error _ caches => { s with caches }

end ShardServer

/-! ## The machine -/

inductive ShardLabel
  | arrive (request : ShardRequest)
  /-- The request at this place goes on. -/
  | proceed (i : Nat)
  | finish (ok : Bool)
  /-- The process exits. -/
  | exit (proc : Nat) (returncode : Int)
  | askStatus
  /-- An inference request checks that a process runs. -/
  | enter (chat : Bool)
  /-- An admitted request obtains its runner. -/
  | serve (i : Nat)
  /-- The pre-warming thread obtains one. -/
  | warm
deriving DecidableEq, Repr

namespace ShardServer

variable (env : ShardEnv)

def step (s : ShardServer) : ShardLabel → Option ShardServer
  | .arrive request => .some (s.arrive env request)
  | .proceed i => do
    let request ← s.waiting[i]?
    let (s', next) ← s.proceed env request
    return { s' with waiting := s.waiting.eraseIdx i ++ next.toList }
  | .finish ok => s.holder.bind (s.finish env ok)
  | .exit proc returncode => do
    let server ← s.servers[proc]?
    if server.returncode.isSome then .none
    else return { s with servers := s.servers.set proc { server with returncode := .some returncode } }
  | .askStatus => .some { s with manager := { s.manager with lastExitCode := s.notedExit } }
  | .enter chat => .some (if s.running then { s with admitted := s.admitted ++ [chat] } else s)
  | .serve i => do
    let chat ← s.admitted[i]?
    return { s.serve chat with admitted := s.admitted.eraseIdx i }
  | .warm =>
    match s.caches.getLocalRunner s.manager.blockIndices with
    | .ok _ caches | .error _ caches => .some { s with caches }

/-! ### What a step was -/

section

variable {env} {s s' : ShardServer}

theorem step_proceed {i : Nat} (hstep : s.step env (.proceed i) = .some s') :
    ∃ request t next, s.waiting[i]? = .some request ∧ s.proceed env request = .some (t, next) ∧
      s' = { t with waiting := s.waiting.eraseIdx i ++ next.toList } := by
  obtain ⟨request, hget, hstep⟩ := Option.bind_eq_some_iff.1 hstep
  obtain ⟨⟨t, next⟩, ht, hstep⟩ := Option.bind_eq_some_iff.1 hstep
  exact ⟨request, t, next, hget, ht, (Option.some.inj hstep).symm⟩

theorem step_finish {ok : Bool} (hstep : s.step env (.finish ok) = .some s') :
    ∃ holder, s.holder = .some holder ∧ s.finish env ok holder = .some s' := Option.bind_eq_some_iff.1 hstep

theorem step_exit {proc : Nat} {returncode : Int} (hstep : s.step env (.exit proc returncode) = .some s') :
    ∃ server, s.servers[proc]? = .some server ∧ server.returncode = .none ∧
      s' = { s with servers := s.servers.set proc { server with returncode := .some returncode } } := by
  obtain ⟨server, hserver, hstep⟩ := Option.bind_eq_some_iff.1 hstep
  split at hstep
  · cases hstep
  · next halive => exact ⟨server, hserver, by simpa using halive, (Option.some.inj hstep).symm⟩

theorem step_serve {i : Nat} (hstep : s.step env (.serve i) = .some s') :
    ∃ chat, s.admitted[i]? = .some chat ∧ s' = { s.serve chat with admitted := s.admitted.eraseIdx i } := by
  obtain ⟨chat, hchat, hstep⟩ := Option.bind_eq_some_iff.1 hstep
  exact ⟨chat, hchat, (Option.some.inj hstep).symm⟩

theorem step_warm (hstep : s.step env .warm = .some s') :
    ∃ caches, s' = { s with caches } ∧
      ((∃ runner, s.caches.getLocalRunner s.manager.blockIndices = .ok runner caches) ∨
        ∃ e, s.caches.getLocalRunner s.manager.blockIndices = .error e caches) := by
  simp only [ShardServer.step] at hstep
  split at hstep
  · next runner caches hget => exact ⟨caches, (Option.some.inj hstep).symm, .inl ⟨runner, hget⟩⟩
  · next e caches hget => exact ⟨caches, (Option.some.inj hstep).symm, .inr ⟨e, hget⟩⟩

end

/-- A manager that has just been made. -/
def fresh (initialPeers : List String) (blockIndices : String) : ShardServer where
  manager := { initialPeers, blockIndices }

end ShardServer

/-- The requests, the processes and the threads, in any order. -/
def shardMachine (env : ShardEnv) : Machine ShardServer ShardLabel where
  step := ShardServer.step env

end Blitzwing
