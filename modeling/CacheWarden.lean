import CacheWarden.Lib.Transition
import CacheWarden.Lib.Duration
import CacheWarden.Clock
import CacheWarden.Entry
import CacheWarden.Key
import CacheWarden.Records
import CacheWarden.Store
import CacheWarden.Lib.Wire
import CacheWarden.Snapshot
import CacheWarden.StoreInvariant
import CacheWarden.SnapshotRoundTrip
import CacheWarden.Handoff
import CacheWarden.HandoffTimes
import CacheWarden.Lib.Reader
import CacheWarden.Vault.Body
import CacheWarden.Vault.Crypto
import CacheWarden.Vault.Format
import CacheWarden.Vault.FormatRoundTrip
import CacheWarden.Vault.Unlocked
import CacheWarden.Vault.UnlockedSpec
import CacheWarden.Vault.Storage
import CacheWarden.Vault.Unlock
import CacheWarden.Vault.Arbitration
import CacheWarden.Vault.Durability
import CacheWarden.Vault.Readback
import CacheWarden.Daemon.Guard
import CacheWarden.Daemon.VaultState
import CacheWarden.Daemon.Wire
import CacheWarden.Daemon.Handler
import CacheWarden.Daemon.Restore
import CacheWarden.Daemon.Refusal
import CacheWarden.StoreRuns
import CacheWarden.FetchSpacing
import CacheWarden.Lasting
import CacheWarden.Lifetime
import CacheWarden.Daemon.Effects
import CacheWarden.Daemon.Handling
import CacheWarden.Daemon.Persistence
import CacheWarden.Daemon.Runs
import CacheWarden.Daemon.Ownership
import CacheWarden.Daemon.ClaimFences
import CacheWarden.Daemon.Startup
import CacheWarden.Daemon.Seeds
import CacheWarden.Daemon.Continuity
import CacheWarden.Daemon.Counter
import CacheWarden.Daemon.TwoCounters
import CacheWarden.Daemon.Rollback
import CacheWarden.Authsock.Discovery
import CacheWarden.Authsock.Admission
import CacheWarden.Daemon.AgentDefinitions
import CacheWarden.Daemon.DefinitionFile
import CacheWarden.Daemon.DefinitionRaces
import CacheWarden.Daemon.DialogAnswers
import CacheWarden.Daemon.ApproverShutdown
import CacheWarden.Daemon.ApproverClient
import CacheWarden.Authsock.AgentMessage
import CacheWarden.Authsock.Codec
import CacheWarden.Daemon.Signing
import CacheWarden.Daemon.Enumeration
import CacheWarden.Daemon.Sockets
import CacheWarden.Daemon.Mediation
import CacheWarden.Daemon.ApprovedRecord
import CacheWarden.Daemon.SigningKeys
import CacheWarden.Lib.Toml
import CacheWarden.Lib.TomlReader
import CacheWarden.Daemon.PersistedFile
import CacheWarden.SystemClock
import CacheWarden.Daemon.Ceremony
import CacheWarden.Daemon.CeremonyUnlock
import CacheWarden.Daemon.Registration
import CacheWarden.Loads
import CacheWarden.Daemon.RestartChain
import CacheWarden.SoftWindow
import CacheWarden.Daemon.SoftWindows
import CacheWarden.Daemon.StandIn
import CacheWarden.Daemon.HandoverGap
import CacheWarden.Vault.Revocation
import CacheWarden.Vault.Wholeness
import CacheWarden.Lib.ProcessTree
import CacheWarden.Ancestry
import CacheWarden.Daemon.GuardPlans
import CacheWarden.Daemon.Capture
import CacheWarden.Vault.Recovery
import CacheWarden.Base32
import CacheWarden.Lib.Narrowing
import CacheWarden.Lib.Regroup
import CacheWarden.Daemon.OneTimeCodes
import CacheWarden.References
import CacheWarden.Authsock.FilterRules
import CacheWarden.Authsock.EcdsaWire
import CacheWarden.Daemon.Assertion
import CacheWarden.Daemon.CeremonyAnswers
import CacheWarden.Daemon.UnlockGate
import CacheWarden.Daemon.UpstreamPaths
import CacheWarden.Lib.Arrivals
import CacheWarden.DekFrame
import CacheWarden.Daemon.HandoffStream
import CacheWarden.Lib.Piped
import CacheWarden.CommandRunners
import CacheWarden.Lib.Firsts
import CacheWarden.Authsock.OpDiscovery
import CacheWarden.Daemon.SourceRecords
import CacheWarden.Daemon.PersistedDocument
import CacheWarden.Daemon.PersistedEntries
import CacheWarden.Daemon.PersistedLoad
import CacheWarden.Daemon.PersistedShape
import CacheWarden.Daemon.PersistedRoundTrip
import CacheWarden.Daemon.Routing
import CacheWarden.Daemon.HandoffReader
import CacheWarden.Daemon.HandoffCommit
import CacheWarden.Lib.CutLines
import CacheWarden.Approver.Messages
import CacheWarden.Approver.Codec
import CacheWarden.Approver.Dialogs
import CacheWarden.Approver.Attribution
import CacheWarden.Approver.Serial
import CacheWarden.Daemon.CeremonyRequests
import CacheWarden.Protocol.Connection
import CacheWarden.Daemon.Configuration
import CacheWarden.Authsock.GithubRefresh
import CacheWarden.Injection
