import Blitzwing.Lib.Machine
import Blitzwing.Lib.Raise
import Blitzwing.Lib.Allocation
import Blitzwing.Ledger
import Blitzwing.RegistryFacts
import Blitzwing.Records
import Blitzwing.Refinement
import Blitzwing.SwarmMap
import Blitzwing.Lifecycle
import Blitzwing.Coverage
import Blitzwing.Departure
import Blitzwing.Payouts
import Blitzwing.Reports
import Blitzwing.Lib.Pool
import Blitzwing.Calls
import Blitzwing.Reclaims
import Blitzwing.Agreement
import Blitzwing.LateReports
import Blitzwing.Lib.UrlText
import Blitzwing.Probes
import Blitzwing.Ready
import Blitzwing.Lib.Json
import Blitzwing.Chat
import Blitzwing.Gateway
import Blitzwing.Lib.Tiling
import Blitzwing.Manifest
import Blitzwing.Lib.Remote
import Blitzwing.LocalRunner
import Blitzwing.HttpChain
import Blitzwing.ShardApp
import Blitzwing.Layers
import Blitzwing.OneMachine
import Blitzwing.Reloads
import Blitzwing.Stream
import Blitzwing.Lib.Log
import Blitzwing.Routes
import Blitzwing.Escrow
import Blitzwing.Earmarks
import Blitzwing.Lib.Ensures
import Blitzwing.EnsService
import Blitzwing.EnsNames
import Blitzwing.EnsRecords
import Blitzwing.EnsClient
import Blitzwing.PendingOps
import Blitzwing.Publication
import Blitzwing.Published
import Blitzwing.Carve
import Blitzwing.ChosenRoute
import Blitzwing.Releases
import Blitzwing.Replays
import Blitzwing.Reapers
import Blitzwing.Verdicts
import Blitzwing.Updates
import Blitzwing.LayerReports
import Blitzwing.Lib.Snapshots
import Blitzwing.RegistryFile
import Blitzwing.Saves
import Blitzwing.Receipts
import Blitzwing.ShardManager
import Blitzwing.Reported
import Blitzwing.StaleChains
import Blitzwing.Lib.Gen
import Blitzwing.Generation
import Blitzwing.Retries
import Blitzwing.Lib.Cut
import Blitzwing.Nucleus
import Blitzwing.Penalties
import Blitzwing.Budgets
import Blitzwing.Lib.Trim
import Blitzwing.Accounts
import Blitzwing.Lib.Parts
import Blitzwing.Addresses
import Blitzwing.Lib.Walks
import Blitzwing.Lib.Causal
import Blitzwing.Petals.Spans
import Blitzwing.Petals.Routing
import Blitzwing.Petals.Manager
import Blitzwing.Petals.Latency
import Blitzwing.Petals.Backend
import Blitzwing.Petals.ClientSession
import Blitzwing.Petals.SessionRuns
import Blitzwing.Petals.MemoryCache
import Blitzwing.Petals.MemoryLock
import Blitzwing.Lib.Reverse
import Blitzwing.Petals.Autograd
import Blitzwing.Petals.AutogradRuns
import Blitzwing.Petals.AutogradBatches
import Blitzwing.Lib.Base64
import Blitzwing.Lib.Extend
import Blitzwing.Petals.Handlers
import Blitzwing.Petals.PushRouting
import Blitzwing.Petals.Speculative
import Blitzwing.TensorCodec
import Blitzwing.Lib.Firsts
import Blitzwing.Petals.InferenceSteps
