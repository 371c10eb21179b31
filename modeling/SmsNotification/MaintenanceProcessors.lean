import SmsNotification.RetentionService
import SmsNotification.SmsLifecycleRepository
import SmsNotification.Surroundings

namespace SmsNotification.MaintenanceProcessors

open SmsNotification.QueueConstants
open SmsNotification.Schema
open SmsNotification.Surroundings

structure Config where
  cleanupBatchSize : Nat
  staleAfterMs : Nat
  recoveryBatchSize : Nat

/-- The settings as the constructors read them. -/
def Config.read (cleanupBatchSize staleAfterMs recoveryBatchSize : Option Int) : Config :=
  { cleanupBatchSize := readPositiveInt cleanupBatchSize 500
    staleAfterMs := readPositiveInt staleAfterMs 300000
    recoveryBatchSize := readPositiveInt recoveryBatchSize 100 }

/-- A job in the hands of one of the processors. -/
structure Task where
  job : Job
  processor : MaintenanceProcessor

inductive State where
  | idle (processor : MaintenanceProcessor)
  | purging (task : Task) (now : Int)
  | selecting (task : Task) (cutoff : Int)
  | recovering (task : Task) (cutoff : Int) (candidate : String) (rest : List String)
  | expiring (task : Task) (messageId : String)
  | finishing (task : Task) (performed : List MaintenanceEffect)
  | failing (task : Task)
  | ended
  | crashed

def RetentionProcessor.process (job : Job) (now : Int) : State :=
  if job.name ≠ retentionCleanupJob then .finishing ⟨job, .retention⟩ []
  else .purging ⟨job, .retention⟩ now

def ProcessingRecoveryProcessor.process (config : Config) (job : Job) (now : Int) : State :=
  if job.name = processingRecoveryJob then
    .selecting ⟨job, .processingRecovery⟩ (now - config.staleAfterMs)
  else .finishing ⟨job, .processingRecovery⟩ []

def AmbiguousOutcomeExpiryProcessor.process (job : Job) : State :=
  if job.name ≠ ambiguousOutcomeExpiryJob then .finishing ⟨job, .ambiguousOutcomeExpiry⟩ []
  else
    match job.messageId with
    | some messageId => .expiring ⟨job, .ambiguousOutcomeExpiry⟩ messageId
    | none => .failing ⟨job, .ambiguousOutcomeExpiry⟩

/-- The processor that has been handed the job runs its own `process`. -/
def process (config : Config) (processor : MaintenanceProcessor) (job : Job) (now : Int) :
    State :=
  match processor with
  | .retention => RetentionProcessor.process job now
  | .processingRecovery => ProcessingRecoveryProcessor.process config job now
  | .ambiguousOutcomeExpiry => AmbiguousOutcomeExpiryProcessor.process job

/-- The loop of the recovery sweep. -/
def recoverNext (task : Task) (cutoff : Int) : List String → State
  | [] => .finishing task [.recoverStaleProcessing]
  | candidate :: rest => .recovering task cutoff candidate rest

end SmsNotification.MaintenanceProcessors
