/-
`orchestrator/app/peer_verify.py`, `swarm_verify.py` and the part of
`engine.py` that loads the Petals client: what the orchestrator can find out
about a contributor before its donor shrinks.

Three things are asked: the contributor's shard manager over HTTP, its peer
address over TCP, and the DHT, which servers hold a block. What each answer
establishes is a predicate (`ReportsAssigned`, `AcceptsTcp`, `BlocksVisible`),
and each check passes exactly where it holds. The last says nothing of who the
servers are: a donor that still holds the blocks is enough
(`blocksVisible_of_donor`). That the newcomer serves its blocks is more:
`ReportsServing` of its shard manager, `ServedBeside` the donor of a view.

The exceptions of the two prechecks are only logged, so the dictionary in the
text of one is left out. `schedule_reload` and the background DHT check run
after the answer and change no record.
-/
import Blitzwing.Lib.UrlText
import Blitzwing.Lib.Raise
import Blitzwing.SwarmMap

namespace Blitzwing

/-- `sm.state.sequence_info.spans_containing_block`: the peers serving each block. -/
abbrev DhtView := List (List String)

/-- `view[idx]`: a negative index counts from the end, `none` is `IndexError`. -/
def DhtView.spans (view : DhtView) (idx : Int) : Option (List String) :=
  if 0 ≤ idx then view[idx.toNat]?
  else if 0 ≤ idx + view.length then view[(idx + view.length).toNat]?
  else .none

/-- What the orchestrator is told from outside while it checks a contributor. -/
structure Outside where
  /-- Network locations in brackets or beyond ASCII that `urlsplit` refuses, with its text. -/
  refused : String → Option String
  /-- `GET`, `raise_for_status` and `json` of a URL. -/
  status : String → Except PyError StatusReply
  /-- `socket.create_connection` -/
  connect : String → Int → Except PyError Unit
  /-- `from_pretrained` with these initial peers. -/
  load : List String → Except PyError Unit
  /-- The model's DHT view at each poll before the deadline, whether or not
  the update in front of it came through; `none` for a model without a
  sequence manager. -/
  views : Option (List DhtView)

/-! ## `peer_verify.py` -/

/-- `127.`, `10.`, `192.168.` and `172.16.` to `172.31.` -/
def privateHostPrefixes : List String :=
  ["127.", "10.", "192.168."] ++ (List.range 16).map fun n => s!"172.{n + 16}."

/-- `_is_public_http_url` of the ready precheck. -/
def isPublicHttpHost (out : Outside) (url : String) : Except PyError Bool :=
  match UrlText.hostname out.refused url with
  | .error text => .error (.valueError text)
  | .ok host =>
    if host = "" ∨ host = "localhost" ∨ host = "127.0.0.1" then .ok false
    else .ok !(privateHostPrefixes.any (PyText.startsWith host))

/-- Does the contributor's shard manager report the expected blocks? -/
def verifyContributorHttp (out : Outside) (shardManagerUrl blockIndices : String) : Except PyError Bool := do
  if shardManagerUrl = "" then return false
  else if ← isPublicHttpHost out shardManagerUrl then do
    let (start, «end») ← parseRange blockIndices
    let data ← out.status (PyText.rstrip shardManagerUrl '/' ++ "/status")
    if data.running then
      match truthy data.blockIndices with
      | .none => return true
      | .some reported => do
        let (rStart, rEnd) ← parseRange reported
        if rStart ≠ start ∨ rEnd ≠ «end» then
          throw (.runtimeError s!"Contributor blocks {reported} do not match assignment {blockIndices}")
        else return true
    else throw (.runtimeError "Contributor shard manager not running")
  else return false

/-- The parts of a multiaddr, each with the one after it; a later host or port
replaces an earlier one. -/
def parsePeerTcpLoop : List String → Option String → Option Int → Except PyError (Option String × Option Int)
  | part :: next :: rest, host, port =>
    if part ∈ ["dns4", "dns6", "dnsaddr", "ip4", "ip6"] then parsePeerTcpLoop (next :: rest) (.some next) port
    else if part = "tcp" then do parsePeerTcpLoop (next :: rest) host (.some (← pyInt next))
    else parsePeerTcpLoop (next :: rest) host port
  | _, host, port => .ok (host, port)

/-- Extract host and port from /dns4/HOST/tcp/PORT or /ip4/IP/tcp/PORT multiaddrs. -/
def parsePeerTcp (peerMultiaddr : String) : Except PyError (String × Int) := do
  let (host, port) ← parsePeerTcpLoop (PyText.split (PyText.strip peerMultiaddr) '/') .none .none
  match truthy host, port with
  | .some host, .some port => return (host, port)
  | _, _ => throw (.valueError s!"Could not parse TCP endpoint from multiaddr: {peerMultiaddr}")

/-- Can the mother open a TCP connection to the contributor peer? -/
def verifyPeerTcp (out : Outside) (peerMultiaddr : String) : Except PyError Bool := do
  if peerMultiaddr = "" then return false
  else
    let (host, port) ← parsePeerTcp peerMultiaddr
    out.connect host port
    return true

/-- `try: ok = check() except Exception: log`, with `ok` false before. -/
def passed (check : Except PyError Bool) : Bool := check.toOption.getD false

/-- The fast path of `/ready`: a mother bootstrap peer is no contributor. -/
def contributorPrecheckPassed (out : Outside) (shardManagerUrl blockIndices : String)
    (peerMultiaddr : Option String) (knownBootstrapPeers : List String) : Bool :=
  let peer := (truthy peerMultiaddr).filter (· ∉ knownBootstrapPeers)
  let httpOk := passed (verifyContributorHttp out shardManagerUrl blockIndices)
  let tcpOk := match peer with
    | .some peer => passed (verifyPeerTcp out peer)
    | .none => false
  httpOk || tcpOk

/-! ## The Petals client -/

structure PetalsEngine where
  loaded : Bool
  extraPeers : List String := []
deriving DecidableEq, Repr

namespace PetalsEngine

/-- initial_peers, then the extra peers that are not among them yet. -/
def effectivePeers (engine : PetalsEngine) (initialPeers : List String) : List String :=
  engine.extraPeers.foldl (fun base p => if p ≠ "" ∧ p ∉ base then base ++ [p] else base) initialPeers

def addPeer (engine : PetalsEngine) (peer : String) : PetalsEngine :=
  if peer ≠ "" ∧ peer ∉ engine.extraPeers then { engine with extraPeers := engine.extraPeers ++ [peer] }
  else engine

def load (out : Outside) (initialPeers : List String) : EStateM PyError PetalsEngine Unit := fun engine =>
  if engine.loaded then .ok () engine
  else if engine.effectivePeers initialPeers = [] then
    .error (.runtimeError ("INITIAL_PEERS is empty. Set it to the VM1 bootstrap multiaddr " ++
      "(e.g. /ip4/<VM1_IP>/tcp/31337/p2p/<PEER_ID>).")) engine
  else match out.load (engine.effectivePeers initialPeers) with
    | .ok _ => .ok () { engine with loaded := true }
    | .error e => .error e engine

def reload (out : Outside) (initialPeers : List String) : EStateM PyError PetalsEngine Unit := do
  modify fun engine => { engine with loaded := false }
  load out initialPeers

end PetalsEngine

/-! ## `swarm_verify.py` -/

/-- `range(start, end)` -/
def pyRange (start «end» : Int) : List Int := (List.range («end» - start).toNat).map fun (n : Nat) => start + n

/-- The blocks of the list that no server holds, `none` where an index raises. -/
def missingBlocks (view : DhtView) : List Int → Option (List Int)
  | [] => .some []
  | idx :: rest => do
    let spans ← view.spans idx
    let missing ← missingBlocks view rest
    return if spans.isEmpty then idx :: missing else missing

/-- Poll until nothing is missing; a poll that raises keeps what the last one missed. -/
def pollUntilVisible (blocks : List Int) : List DhtView → List Int → Except (List Int) Unit
  | [], lastMissing => .error lastMissing
  | view :: views, lastMissing =>
    match missingBlocks view blocks with
    | .some [] => .ok ()
    | .some missing => pollUntilVisible blocks views missing
    | .none => pollUntilVisible blocks views lastMissing

def verifyBlocksVisible (out : Outside) (initialPeers : List String) (blockIndices : String)
    (timeoutSeconds : Int) : EStateM PyError PetalsEngine Unit :=
  match parseRange blockIndices with
  | .error e => throw e
  | .ok (start, «end») => do
    PetalsEngine.load out initialPeers
    match out.views with
    | .none => throw (.runtimeError "Could not locate Petals sequence manager on model")
    | .some views =>
      match pollUntilVisible (pyRange start «end») views [] with
      | .ok _ => return
      | .error lastMissing =>
        throw (.runtimeError (s!"Blocks {blockIndices} not reachable in swarm after {timeoutSeconds}s " ++
          s!"(still missing indices {lastMissing}). " ++
          "Contributor may be behind NAT without relay, or Petals is still loading."))

/-! ## What each check establishes -/

/-- The shard manager at a public address says it runs, and that it serves the
assigned range, or names none. -/
def ReportsAssigned (out : Outside) (shardManagerUrl assigned : String) : Prop :=
  shardManagerUrl ≠ "" ∧ isPublicHttpHost out shardManagerUrl = .ok true ∧
    ∃ reply, out.status (PyText.rstrip shardManagerUrl '/' ++ "/status") = .ok reply ∧ reply.running = true ∧
      ∃ p, parseRange assigned = .ok p ∧ ∀ live, truthy reply.blockIndices = .some live → parseRange live = .ok p

/-- The same, and the range it serves is named. -/
def ReportsServing (out : Outside) (shardManagerUrl assigned : String) : Prop :=
  shardManagerUrl ≠ "" ∧ isPublicHttpHost out shardManagerUrl = .ok true ∧
    ∃ reply, out.status (PyText.rstrip shardManagerUrl '/' ++ "/status") = .ok reply ∧ reply.running = true ∧
      ∃ p live, parseRange assigned = .ok p ∧ truthy reply.blockIndices = .some live ∧ parseRange live = .ok p

/-- Something accepts a connection at the peer address. -/
def AcceptsTcp (out : Outside) (peer : String) : Prop :=
  ∃ host port, parsePeerTcp peer = .ok (host, port) ∧ out.connect host port = .ok ()

/-- In some view polled, some server holds each block of the assigned range. -/
def BlocksVisible (out : Outside) (assigned : String) : Prop :=
  ∃ p views view, parseRange assigned = .ok p ∧ out.views = .some views ∧ view ∈ views ∧
    ∀ idx, p.1 ≤ idx → idx < p.2 → ∃ spans, view.spans idx = .some spans ∧ spans ≠ []

/-- The view the check returns on: the first that misses nothing. -/
def completeView (out : Outside) (assigned : String) : Option DhtView := do
  let (start, «end») ← (parseRange assigned).toOption
  let views ← out.views
  views.find? fun view => missingBlocks view (pyRange start «end») = .some []

/-- The view lists a server other than the donor for each assigned block, so
that none is lost when the donor drops them. -/
def ServedBeside (donor : String) (view : DhtView) (assigned : String) : Prop :=
  ∃ p, parseRange assigned = .ok p ∧ ∀ idx, p.1 ≤ idx → idx < p.2 →
    ∃ spans, view.spans idx = .some spans ∧ ∃ peer ∈ spans, peer ≠ donor

section

variable {out : Outside}

theorem passed_iff {check : Except PyError Bool} : passed check = true ↔ check = .ok true := by
  cases check <;> simp [passed, Except.toOption]

theorem verifyContributorHttp_eq_true {url assigned : String} :
    verifyContributorHttp out url assigned = .ok true ↔ ReportsAssigned out url assigned := by
  unfold verifyContributorHttp ReportsAssigned
  by_cases hurl : url = ""
  · simp [hurl]
  cases hpub : isPublicHttpHost out url with
  | error e => simp [hurl]
  | ok isPublic =>
    cases isPublic with
    | false => simp [hurl]
    | true =>
      cases hp : parseRange assigned with
      | error e => simp [hurl]
      | ok p =>
        cases hs : out.status (PyText.rstrip url '/' ++ "/status") with
        | error e => simp [hurl]
        | ok reply =>
          cases hrun : reply.running with
          | false => simp [hurl, hrun]
          | true =>
            cases hlive : truthy reply.blockIndices with
            | none => simp [hurl, hrun, hlive]
            | some live =>
              cases hr : parseRange live with
              | error e => simp [hurl, hrun, hlive, hr]
              | ok r =>
                by_cases he : r = p
                · simp [hurl, hrun, hlive, hr, he]
                · have hne : r.1 ≠ p.1 ∨ r.2 ≠ p.2 := by
                    by_contra hc
                    push Not at hc
                    exact he (Prod.ext hc.1 hc.2)
                  simp [hurl, hrun, hlive, hr, he, hne]

theorem verifyPeerTcp_eq_true {peer : String} (hpeer : peer ≠ "") :
    verifyPeerTcp out peer = .ok true ↔ AcceptsTcp out peer := by
  unfold verifyPeerTcp AcceptsTcp
  simp only [if_neg hpeer]
  cases hp : parsePeerTcp peer with
  | error e => simp
  | ok p =>
    obtain ⟨host, port⟩ := p
    cases hc : out.connect host port with
    | error e => simp [hc]
    | ok _ => simp [hc]

/-- **The precheck.** It passes exactly where the shard manager reports the
assigned range or the peer, no bootstrap peer, accepts a connection. -/
theorem contributorPrecheckPassed_iff {url assigned : String} {peer : Option String} {known : List String} :
    contributorPrecheckPassed out url assigned peer known = true ↔
      ReportsAssigned out url assigned ∨ ∃ p, truthy peer = .some p ∧ p ∉ known ∧ AcceptsTcp out p := by
  simp only [contributorPrecheckPassed, Bool.or_eq_true, passed_iff, verifyContributorHttp_eq_true]
  refine or_congr_right ?_
  cases hp : truthy peer with
  | none => simp [Option.filter]
  | some p =>
    have hne : p ≠ "" := truthy_ne_empty hp
    by_cases hk : p ∈ known
    · simp [Option.filter, hk]
    · simp [Option.filter, hk, passed_iff, verifyPeerTcp_eq_true hne]

/-! ## The polls -/

@[simp] theorem mem_pyRange {start «end» idx : Int} : idx ∈ pyRange start «end» ↔ start ≤ idx ∧ idx < «end» := by
  simp only [pyRange, List.mem_map, List.mem_range]
  constructor
  · rintro ⟨n, hn, rfl⟩
    omega
  · rintro ⟨h₁, h₂⟩
    exact ⟨(idx - start).toNat, by omega, by omega⟩

theorem missingBlocks_eq_nil {view : DhtView} {blocks : List Int} :
    missingBlocks view blocks = .some [] ↔ ∀ idx ∈ blocks, ∃ spans, view.spans idx = .some spans ∧ spans ≠ [] := by
  induction blocks with
  | nil => simp [missingBlocks]
  | cons idx rest ih =>
    simp only [List.mem_cons, forall_eq_or_imp, ← ih, missingBlocks]
    cases view.spans idx with
    | none => simp
    | some spans =>
      cases missingBlocks view rest with
      | none => simp
      | some missing => cases spans <;> simp

theorem pollUntilVisible_eq_ok {blocks : List Int} {views : List DhtView} {lastMissing : List Int} :
    pollUntilVisible blocks views lastMissing = .ok () ↔ ∃ view ∈ views, missingBlocks view blocks = .some [] := by
  induction views generalizing lastMissing with
  | nil => simp [pollUntilVisible]
  | cons view views ih =>
    simp only [List.mem_cons, exists_eq_or_imp, pollUntilVisible]
    cases missingBlocks view blocks with
    | none => simp [ih]
    | some missing => cases missing <;> simp [ih]

theorem completeView_isSome {assigned : String} : (completeView out assigned).isSome ↔ BlocksVisible out assigned := by
  unfold completeView BlocksVisible
  cases hp : parseRange assigned with
  | error e => simp [Except.toOption]
  | ok p =>
    cases hv : out.views with
    | none => simp [Except.toOption]
    | some views => simp [Except.toOption, missingBlocks_eq_nil]

/-- **The DHT check.** With the client loaded it returns exactly where some
poll finds a server for each block. -/
theorem verifyBlocksVisible_eq_ok {initialPeers : List String} {assigned : String} {timeout : Int}
    {engine engine' : PetalsEngine} (hl : engine.loaded = true) :
    verifyBlocksVisible out initialPeers assigned timeout engine = .ok () engine' ↔
      engine = engine' ∧ BlocksVisible out assigned := by
  unfold verifyBlocksVisible BlocksVisible
  cases hp : parseRange assigned with
  | error e => simp
  | ok p =>
    simp only [bind_apply, PetalsEngine.load, if_pos hl, Except.ok.injEq]
    cases hv : out.views with
    | none => simp
    | some views =>
      have hpoll : pollUntilVisible (pyRange p.1 p.2) views [] = .ok () ↔ ∃ view ∈ views,
          ∀ idx, p.1 ≤ idx → idx < p.2 → ∃ spans, view.spans idx = .some spans ∧ spans ≠ [] := by
        simp [pollUntilVisible_eq_ok, missingBlocks_eq_nil]
      cases hr : pollUntilVisible (pyRange p.1 p.2) views [] with
      | error lastMissing =>
        have hnone := mt hpoll.2 (by simp [hr])
        simpa [hr] using fun _ => hnone
      | ok _ =>
        have hview := hpoll.1 hr
        simpa [hr] using fun _ => hview

/-- **Anybody's blocks will do.** Where a view polled lists the donor for each
assigned block, the check passes, whoever else is in the view. -/
theorem blocksVisible_of_donor {assigned donor : String} {p : Int × Int} {views : List DhtView} {view : DhtView}
    (hp : parseRange assigned = .ok p) (hviews : out.views = .some views) (hview : view ∈ views)
    (hdonor : ∀ idx, p.1 ≤ idx → idx < p.2 → ∃ spans, view.spans idx = .some spans ∧ donor ∈ spans) :
    BlocksVisible out assigned := by
  refine ⟨p, views, view, hp, hviews, hview, fun idx h₁ h₂ => ?_⟩
  obtain ⟨spans, hspans, hmem⟩ := hdonor idx h₁ h₂
  exact ⟨spans, hspans, List.ne_nil_of_mem hmem⟩

end

end Blitzwing
