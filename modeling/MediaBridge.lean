import MediaBridge.Foundation.Base64
import MediaBridge.Foundation.Json
import MediaBridge.Foundation.Unicode
import MediaBridge.Core.Capabilities
import MediaBridge.Core.MediaReference
import MediaBridge.Core.OpenaiResponses
import MediaBridge.Core.NormalizerErrors
import MediaBridge.Core.NormalizerTotality
import MediaBridge.Foundation.JsonText
import MediaBridge.Foundation.JsonRoundTrip
import MediaBridge.Core.Receipts
import MediaBridge.Foundation.Runs
import MediaBridge.Gateway.Downstream
import MediaBridge.Gateway.EvidenceRuns
import MediaBridge.Core.Gate
import MediaBridge.Core.GateBoundary
import MediaBridge.Gateway.State
import MediaBridge.Gateway.Transaction
import MediaBridge.Gateway.SealedTurn
import MediaBridge.Gateway.SealCompleteness
import MediaBridge.Gateway.SentMedia
import MediaBridge.Gateway.TaintRuns
import MediaBridge.Core.OpenaiChat
import MediaBridge.Foundation.TextOrder
import MediaBridge.Gateway.ConversationPrompt
import MediaBridge.Gateway.ChatConversation
import MediaBridge.Core.ChatStream
import MediaBridge.Core.ChatFraming
import MediaBridge.Foundation.Sse
import MediaBridge.Gateway.Streams
import MediaBridge.Foundation.JsonAscii
import MediaBridge.Gateway.StreamOutcomes
import MediaBridge.Core.ConfigSnapshot
import MediaBridge.Core.RuntimeSnapshot
import MediaBridge.Foundation.JsonEqual
import MediaBridge.Gateway.Auth
import MediaBridge.Gateway.LlmBackends
import MediaBridge.Gateway.Generation
import MediaBridge.Gateway.ReloadHistories
import MediaBridge.Control.PublishOrder
import MediaBridge.Gateway.RuntimeRuns
import MediaBridge.Gateway.RegistryNames
import MediaBridge.Gateway.ProviderChoice
import MediaBridge.Gateway.AutoDispatch
import MediaBridge.Gateway.PublicNames
import MediaBridge.Control.Credentials
import MediaBridge.Control.IssuedTokens
import MediaBridge.Core.GateReturns
import MediaBridge.Foundation.JsonWritable
import MediaBridge.Foundation.JsonEncoded
import MediaBridge.Foundation.JsonCut
import MediaBridge.Foundation.JsonSorted
import MediaBridge.Foundation.JsonCharacters
import MediaBridge.Gateway.ProviderStream
import MediaBridge.Gateway.ProviderText
import MediaBridge.Foundation.JsonSurrogates
import MediaBridge.Core.ReceiptVerification
import MediaBridge.Foundation.Expiring
import MediaBridge.Gateway.StateHistory
import MediaBridge.Gateway.LegacyState
import MediaBridge.Gateway.LegacyTurns
import MediaBridge.Foundation.TokenBucket
import MediaBridge.Gateway.RateLimit
import MediaBridge.Gateway.RateRuns
import MediaBridge.Core.InteropV2
import MediaBridge.Gateway.Hops
import MediaBridge.Core.Idempotency
import MediaBridge.Core.IdempotencyBounds
import MediaBridge.Core.IdempotencyReplay
import MediaBridge.Core.TransformationReceipt
import MediaBridge.Gateway.PreparationTransaction
import MediaBridge.Gateway.ReceiptLifetimes
import MediaBridge.Core.AssetStore
import MediaBridge.Core.AssetLifecycle
import MediaBridge.Core.AssetRuns
import MediaBridge.Control.Revocation
import MediaBridge.Foundation.Interleaving
import MediaBridge.Foundation.Rows
import MediaBridge.Foundation.WindowTable
import MediaBridge.Control.Accounts
import MediaBridge.Control.UserUpdates
import MediaBridge.Control.Schemas
import MediaBridge.Control.Connections
import MediaBridge.Control.Limiters
import MediaBridge.Control.Totp
import MediaBridge.Control.Authentication
import MediaBridge.Control.SecondFactor
import MediaBridge.Control.ThrottledCalls
import MediaBridge.Control.ProviderCatalog
import MediaBridge.Control.Configuration
import MediaBridge.Control.ConfigurationOperations
import MediaBridge.Control.ConfigurationRows
import MediaBridge.Control.ConfigurationIntegrity
import MediaBridge.Control.ConfigurationUpdates
import MediaBridge.Adapters.MediaScan
import MediaBridge.Adapters.PreUpstream
import MediaBridge.Adapters.TextOnlyTargets
import MediaBridge.Personal.Settings
import MediaBridge.Personal.Launcher
import MediaBridge.Personal.SavedSettings
import MediaBridge.Personal.ProfileAutostart
import MediaBridge.Personal.Supervisor
import MediaBridge.Personal.SupervisorRuns
import MediaBridge.Foundation.Faults
import MediaBridge.Foundation.JsonReread
import MediaBridge.Foundation.JsonCopy
import MediaBridge.Adapters.OpenCodex
import MediaBridge.Adapters.OpenCodexSettings
import MediaBridge.Adapters.OpenCodexRuns
import MediaBridge.Personal.Installer
import MediaBridge.Personal.InstallerRuns
import MediaBridge.Deploy.Backup
import MediaBridge.Deploy.BackupOutcomes
import MediaBridge.Foundation.JsonIndented
import MediaBridge.Foundation.JsonSize
import MediaBridge.Personal.ConfigFile
import MediaBridge.Personal.CredentialStore
import MediaBridge.Personal.Composition
import MediaBridge.Personal.SolarResponses
import MediaBridge.Personal.ConfigRoute
import MediaBridge.Personal.PlainRequests
import MediaBridge.Personal.RunnableSettings
import MediaBridge.Foundation.FirstFailure
import MediaBridge.Personal.SolarTranslation
import MediaBridge.Core.LocatorOrder
import MediaBridge.Personal.LocalStateRuns
import MediaBridge.Core.SanitizerLaws
import MediaBridge.Core.ReportedNames
import MediaBridge.Foundation.Occurrences
import MediaBridge.Foundation.JsonVerbatim
import MediaBridge.Personal.LocalState
import MediaBridge.Gateway.PriorityOrder
import MediaBridge.Gateway.StreamingResponse
import MediaBridge.Gateway.ProviderPayload
import MediaBridge.Gateway.EffortPrecedence
import MediaBridge.Core.MediaExtraction
import MediaBridge.Core.ChatTranslation
import MediaBridge.Gateway.TurnFailures
import MediaBridge.Gateway.RequestHandlers
import MediaBridge.Control.TotpCodes
import MediaBridge.Personal.SafeValues
import MediaBridge.Personal.EventLogRuns
import MediaBridge.Personal.CredentialRuns
import MediaBridge.Personal.LauncherOverrides
import MediaBridge.Core.LocalMedia
import MediaBridge.Control.SnapshotSigning
import MediaBridge.Control.Sessions
import MediaBridge.Deploy.SecretBootstrap
import MediaBridge.Personal.SolarAnswers
import MediaBridge.Control.Bootstrap
import MediaBridge.Personal.RuntimeReload
