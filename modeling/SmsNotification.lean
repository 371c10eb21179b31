import SmsNotification.ActorSystem
import SmsNotification.Schema
import SmsNotification.SmsLifecycleRepository
import SmsNotification.SmsPersistenceRepository
import SmsNotification.RetentionService
import SmsNotification.MessageAggregate
import SmsNotification.LifecycleEffects
import SmsNotification.Surroundings
import SmsNotification.SmsProcessor
import SmsNotification.OutboxRelayService
import SmsNotification.MaintenanceProcessors
import SmsNotification.Service
import SmsNotification.ServiceEffects
import SmsNotification.ServiceRuns
import SmsNotification.AttemptLedger
import SmsNotification.Reservations
import SmsNotification.NoDuplicateDelivery
import SmsNotification.LifecycleConformance
import SmsNotification.OutboxConservation
import SmsNotification.OutboxPublication
import SmsNotification.ParkedMessages
import SmsNotification.StrandedMessages
import SmsNotification.IdempotentIngestion
import SmsNotification.OperationFrames
import SmsNotification.PurgeTransaction
import SmsNotification.OperatorResolutions
import SmsNotification.Webhooks
import SmsNotification.ProviderIsolation
import SmsNotification.ParkedCallbacks
import SmsNotification.RepeatedCallbacks
import SmsNotification.KeyRetention
import SmsNotification.RetentionRace
import SmsNotification.AmbiguousExpiry
import SmsNotification.DispatchClaims
import SmsNotification.ClaimExclusivity
import SmsNotification.PassBudget
import SmsNotification.RetryBudget
import SmsNotification.JobHandout
import SmsNotification.RetryBackoff
import SmsNotification.MaintenanceJobs
import SmsNotification.ProviderRateLimiter
import SmsNotification.BirdPayloads
import SmsNotification.ReferentialIntegrity
import SmsNotification.PurgeIntegrity
import SmsNotification.ResolutionAnswers
import SmsNotification.OutboxAgreement
import SmsNotification.JavaScriptText
import SmsNotification.InternetAddresses
import SmsNotification.NetworkContainment
import SmsNotification.MixedSpellings
import SmsNotification.AllowListGrammar
import SmsNotification.StepBudgets
import SmsNotification.PassLength
import SmsNotification.LostRaces
import SmsNotification.PassResults
import SmsNotification.PassStages
import SmsNotification.DispatchPass
import SmsNotification.StatusTables
import SmsNotification.UnicodeText
import SmsNotification.EncryptionService
import SmsNotification.JsonValues
import SmsNotification.BoundedMetadata
import SmsNotification.FormSignatures
import SmsNotification.ProviderErrors
import SmsNotification.ProviderManager
import SmsNotification.DeliveryAttempts
import SmsNotification.GrowingLists
import SmsNotification.AuditTrail
import SmsNotification.VerdictEvidence
import SmsNotification.OutboxJournal
import SmsNotification.RequeueReceipts
import SmsNotification.AcceptedPayloads
import SmsNotification.AtMostOnce
import SmsNotification.DeliveryContract
import SmsNotification.SmsService
import SmsNotification.FinalOutcomes
import SmsNotification.FailoverOrder
import SmsNotification.EnvironmentValidation
import SmsNotification.ServiceStartup
import SmsNotification.HiddenParts
import SmsNotification.WholeService
import SmsNotification.MaintenanceRefinement
import SmsNotification.RecoveryLeases
import SmsNotification.GracePeriod
import SmsNotification.FixedWindows
import SmsNotification.RateLimitWindows
import SmsNotification.RelayTicks
import SmsNotification.ActorTermination
