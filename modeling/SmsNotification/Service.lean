import SmsNotification.ActorSystem
import SmsNotification.MaintenanceProcessors
import SmsNotification.OutboxRelayService
import SmsNotification.SmsPersistenceRepository
import SmsNotification.SmsProcessor

/-!
The service as a system of actors: calls of the repositories, dispatch workers,
relay ticks and maintenance workers, all on one database and one outside world.
-/

namespace SmsNotification.Service

open SmsNotification.ActorSystem
open SmsNotification.KeyedStore
open SmsNotification.ReadCommitted
open SmsNotification.RetentionService
open SmsNotification.Schema
open SmsNotification.SmsLifecycleRepository
open SmsNotification.SmsPersistenceRepository
open SmsNotification.Surroundings

/-- A call of a lifecycle method that runs in one transaction. -/
inductive Operation where
  | beginProcessing (messageId : String)
  | reserveProviderAttempt (messageId providerName : String)
  | finalizeProviderAttempt (messageId attemptId : String)
      (input : FinalizeProviderAttemptInput)
  | resolveTwilioAttempt (messageId attemptId : String) (input : ResolveTwilioAttemptInput)
  | scheduleRetry (messageId : String) (opts : ScheduleRetryOptions)
  | markPermanentProviderFailure (messageId : String) (status : PermanentProviderFailureStatus)
      (lastError : String)
  | markFatalFailure (messageId lastError : String)
  | expireAmbiguousOutcome (messageId : String)
  | resetForRequeue (messageId : String)
  | applyDeliveryReport (input : ApplyDeliveryReportInput)

inductive Answer where
  | begun (result : BeginProcessingResult)
  | reservation (result : ReserveProviderAttemptResult)
  | finalized
  | resolution (result : ResolveTwilioAttemptResult)
  | transitioned (message : LifecycleSmsMessage)
  | expiry (result : ExpireAmbiguousOutcomeResult)
  | requeue (result : ResetForRequeueResult)
  | report (result : ApplyDeliveryReportResult)

def runOperation : Operation → Sql Answer
  | .beginProcessing messageId => (beginProcessing messageId).map .begun
  | .reserveProviderAttempt messageId providerName =>
      (reserveProviderAttempt messageId providerName).map .reservation
  | .finalizeProviderAttempt messageId attemptId input =>
      (finalizeProviderAttempt messageId attemptId input).map fun _ => .finalized
  | .resolveTwilioAttempt messageId attemptId input =>
      (resolveTwilioAttempt messageId attemptId input).map .resolution
  | .scheduleRetry messageId opts => (scheduleRetry messageId opts).map .transitioned
  | .markPermanentProviderFailure messageId status lastError =>
      (markPermanentProviderFailure messageId status lastError).map .transitioned
  | .markFatalFailure messageId lastError =>
      (markFatalFailure messageId lastError).map .transitioned
  | .expireAmbiguousOutcome messageId => (expireAmbiguousOutcome messageId).map .expiry
  | .resetForRequeue messageId => (resetForRequeue messageId).map .requeue
  | .applyDeliveryReport input => (applyDeliveryReport input).map .report

/-- A recovery sweep: its query, then one candidate after the other. -/
inductive Sweep where
  | selecting (cutoff : Int) (limit : Nat)
  | recovering (cutoff : Int) (candidate : String) (rest : List String) (recovered : Nat)
  | returned (recovered : Nat)
  | rejected

/-- The loop of `recoverStaleProcessing`. -/
def Sweep.next (cutoff : Int) (recovered : Nat) : List String → Sweep
  | [] => .returned recovered
  | candidate :: rest => .recovering cutoff candidate rest recovered

/-- One await of one actor. -/
inductive Control where
  | calling (op : Operation)
  | returned (op : Operation) (answer : Answer)
  | rejected (op : Operation) (error : Failure)
  | creating (call : CreateOrGetMessage) (again : Bool)
  | created (call : CreateOrGetMessage) (result : CreateOrGetSmsMessageResult)
  | createFailed (call : CreateOrGetMessage) (again : Bool) (error : Failure)
  | sweep (state : Sweep)
  | purging (now : Int) (batchSize : Nat)
  | purged (deletedMessages : Nat)
  | purgeFailed
  | dispatch (state : SmsProcessor.State)
  | relay (state : OutboxRelayService.State)
  | maintenance (state : MaintenanceProcessors.State)
  | crashed

structure Config where
  processor : SmsProcessor.Config
  maintenance : MaintenanceProcessors.Config

abbrev ServiceCode := Code Choice Row.key Failure Control Outside

/-- `createOrGetMessage`: the second run follows a unique violation of the first. -/
def creatingCode (call : CreateOrGetMessage) (again : Bool) : ServiceCode :=
  .tx ((createOrGetMessageInTransaction call).map (.created call)) fun error =>
    if !again && isUniqueConstraintViolation error then .creating call true
    else .createFailed call again error

def sweepCode : Sweep → ServiceCode
  | .selecting cutoff limit =>
      .tx ((staleCandidates cutoff limit).map fun candidates =>
        .sweep (Sweep.next cutoff 0 candidates)) fun _ => .sweep .rejected
  | .recovering cutoff candidate rest recovered =>
      .tx ((recoverCandidate cutoff candidate).map fun didRecover =>
        .sweep (Sweep.next cutoff (recovered + if didRecover then 1 else 0) rest))
        fun _ => .sweep .rejected
  | .returned _ => .halt
  | .rejected => .halt

/-- The query of the worker for recipient and body. -/
def findMessage (messageId : String) : Sql (Option SmsMessage) :=
  Tx.read fun _ s => smsMessage.find s messageId

section Workers

open SmsNotification.QueueConstants

/-- An external call that may fail. -/
def externally (c : Choice) (o : Outside) (ok failed : Control) : Option (Outside × Control) :=
  some (o, if c.served then ok else failed)

open SmsNotification.SmsProcessor in
/-- The awaits of `processDispatch`. -/
def dispatchCode (config : SmsProcessor.Config) : SmsProcessor.State → ServiceCode
  | .idle => .ext fun c o =>
      (o.takeJob .smsDispatch c.pick).map fun taken =>
        (taken.1, .dispatch (process taken.2))
  | .beginning task =>
      .tx ((beginProcessing task.messageId).map fun begin => .dispatch (afterBegin task begin))
        fun _ => .dispatch (.failing task)
  | .loading task begin =>
      .tx ((findMessage task.messageId).map fun row =>
        .dispatch (afterLoad config task begin row)) fun _ => .dispatch (.failing task)
  | .markingMissing task =>
      .tx ((markFatalFailure task.messageId "Message row disappeared before dispatch").map
        fun _ => .dispatch (.finishing task (.deadLetter .messageMissing)))
        fun error => .dispatch (guardConcurrency task error)
  | .reserving pass provider rest =>
      .tx ((reserveProviderAttempt pass.task.messageId provider).map fun reservation =>
        .dispatch (afterReserve pass provider rest reservation))
        fun _ => .dispatch (.failing pass.task)
  | .acquiring hold => .ext fun c o =>
      externally c o (.dispatch (.calling hold)) (.dispatch (.failing hold.pass.task))
  | .calling hold => .ext fun _ o =>
      some (o.startCall hold.call, .dispatch (.awaiting hold o.calls.length))
  | .awaiting hold call => .ext fun c o =>
      (o.answerCall call c.reply).map fun o' => (o', .dispatch (afterSend config hold c.reply))
  | .finalizing hold input =>
      .tx ((finalizeProviderAttempt hold.pass.task.messageId hold.attemptId input).map
        fun _ => .dispatch (afterFinalize config hold input))
        fun _ => .dispatch (.failing hold.pass.task)
  | .schedulingRetry pass opts =>
      .tx ((scheduleRetry pass.task.messageId opts).map
        fun _ => .dispatch (.finishing pass.task .retryScheduled))
        fun error => .dispatch (guardConcurrency pass.task error)
  | .markingFatal pass lastError reason =>
      .tx ((markFatalFailure pass.task.messageId lastError).map
        fun _ => .dispatch (.finishing pass.task (.deadLetter reason)))
        fun error => .dispatch (guardConcurrency pass.task error)
  | .finishing task outcome => .ext fun _ o =>
      some (o.removeJob task.job, .dispatch (.finished outcome))
  | .failing task => .ext fun _ o => some (o.removeJob task.job, .dispatch .failed)
  | .finished _ => .halt
  | .failed => .halt
  | .crashed => .halt

open SmsNotification.OutboxRelayService in
/-- The awaits of `relayOnce`. -/
def relayCode : OutboxRelayService.State → ServiceCode
  | .fetching batchSize =>
      .tx ((fetchUnpublishedOutbox batchSize).map fun events => .relay (relay events))
        fun _ => .relay .tickFailed
  | .adding event queueJob rest => .ext fun c o =>
      let job := queueJob.toJob event.id
      if c.served then some (o.acknowledgeJob job, .relay (.marking event rest))
      else
        some (if c.effective then o.addJob job else o, .relay (.recording event c.text rest))
  | .marking event rest =>
      .tx ((markOutboxPublished event.id).map fun _ => .relay (relay rest))
        fun error => .relay (.recording event error.message rest)
  | .recording event description rest =>
      .tx ((recordOutboxPublishFailure event.id description).map fun _ => .relay (relay rest))
        fun _ => .relay .tickFailed
  | .drained => .halt
  | .tickFailed => .halt
  | .crashed => .halt

open SmsNotification.MaintenanceProcessors in
/-- The awaits of the maintenance processors. -/
def maintenanceCode (config : MaintenanceProcessors.Config) :
    MaintenanceProcessors.State → ServiceCode
  | .idle processor => .ext fun c o =>
      (o.takeJob .smsMaintenance c.pick).map fun taken =>
        (taken.1, .maintenance (process config processor taken.2 c.now))
  | .purging task now =>
      .tx ((purgeExpired now config.cleanupBatchSize).map
        fun _ => .maintenance (.finishing task [.purgeExpired]))
        fun _ => .maintenance (.failing task)
  | .selecting task cutoff =>
      .tx ((staleCandidates cutoff config.recoveryBatchSize).map
        fun candidates => .maintenance (recoverNext task cutoff candidates))
        fun _ => .maintenance (.failing task)
  | .recovering task cutoff candidate rest =>
      .tx ((recoverCandidate cutoff candidate).map
        fun _ => .maintenance (recoverNext task cutoff rest))
        fun _ => .maintenance (.failing task)
  | .expiring task messageId =>
      .tx ((expireAmbiguousOutcome messageId).map
        fun _ => .maintenance (.finishing task [.expireAmbiguousOutcome messageId]))
        fun _ => .maintenance (.failing task)
  | .finishing task performed => .ext fun _ o =>
      some ({ o.removeJob task.job with
        completed := o.completed ++ [⟨task.job, task.processor, performed⟩] },
        .maintenance .ended)
  | .failing task => .ext fun _ o => some (o.removeJob task.job, .maintenance .ended)
  | .ended => .halt
  | .crashed => .halt

end Workers

def code (config : Config) : Control → ServiceCode
  | .calling op => .tx ((runOperation op).map (.returned op)) (.rejected op)
  | .returned _ _ => .halt
  | .rejected _ _ => .halt
  | .creating call again => creatingCode call again
  | .created _ _ => .halt
  | .createFailed _ _ _ => .halt
  | .sweep state => sweepCode state
  | .purging now batchSize =>
      .tx ((purgeExpired now batchSize).map .purged) fun _ => .purgeFailed
  | .purged _ => .halt
  | .purgeFailed => .halt
  | .dispatch state => dispatchCode config.processor state
  | .relay state => relayCode state
  | .maintenance state => maintenanceCode config.maintenance state
  | .crashed => .halt

/-- A crash keeps nothing of what the actor knew. -/
def crash : Control → Control
  | .dispatch _ => .dispatch .crashed
  | .relay _ => .relay .crashed
  | .maintenance _ => .maintenance .crashed
  | _ => .crashed

/-- The service. -/
def service (config : Config) : Protocol Choice Row.key Failure Control Outside :=
  { code := code config
    supply := Choice.supplied
    parents := Row.parents
    fault := .unavailable
    crashed := crash
    env := fun c o => o.move c }

end SmsNotification.Service
