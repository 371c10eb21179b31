import SmsNotification.Schema

namespace SmsNotification.SmsLifecycleRepository

open SmsNotification.ReadCommitted
open SmsNotification.Schema
open SmsNotification.SmsStateMachine

/-- The projection of a message without phone number and body. -/
structure LifecycleSmsMessage where
  id : String
  status : SmsStatus
  selectedProvider : Option String
  providerMessageId : Option String
  lastError : Option String
  deliveryAttempts : Nat
  retryRounds : Nat
  createdAt : Int
  updatedAt : Int

def lifecycleSelect (row : SmsMessage) : LifecycleSmsMessage :=
  { id := row.id
    status := row.status
    selectedProvider := row.selectedProvider
    providerMessageId := row.providerMessageId
    lastError := row.lastError
    deliveryAttempts := row.deliveryAttempts
    retryRounds := row.retryRounds
    createdAt := row.createdAt
    updatedAt := row.updatedAt }

structure UnpublishedOutboxEvent where
  id : String
  aggregateType : String
  aggregateId : String
  eventType : String
  payload : Json
  retryCount : Nat
  createdAt : Int

def unpublishedSelect (row : OutboxEvent) : UnpublishedOutboxEvent :=
  { id := row.id
    aggregateType := row.aggregateType
    aggregateId := row.aggregateId
    eventType := row.eventType
    payload := row.payload
    retryCount := row.retryCount
    createdAt := row.createdAt }

inductive BeginProcessingResult where
  | started (message : LifecycleSmsMessage)
  | notStartable

inductive ReserveProviderAttemptResult where
  | reserved (attemptId : String)
  | notReservable

inductive FinalizeProviderAttemptInput where
  | accepted (providerMessageId : String)
  | failed (isAmbiguous isRetryable : Bool) (errorMessage : String)
      (ambiguousOutcomeExpiryMs : Option ℚ)

inductive ResolveTwilioAttemptInput where
  | knownSid (providerMessageId : String)
  | undelivered (evidenceCode : SmsUndeliveredEvidenceCode)

inductive ResolveTwilioAttemptResult where
  | resolved (message : LifecycleSmsMessage)
  | alreadyResolved (message : LifecycleSmsMessage)
  | notFound
  | notAwaitingProviderResult (currentStatus : SmsStatus)
  | invalidAttempt
  | conflict

inductive ApplyDeliveryReportResult where
  | applied (message : LifecycleSmsMessage)
  | duplicate (message : LifecycleSmsMessage)
  | notFound
  | invalidTransition (currentStatus : SmsStatus)

inductive ResetForRequeueResult where
  | requeued (message : LifecycleSmsMessage)
  | notFound
  | notFatal (currentStatus : SmsStatus)

inductive ExpireAmbiguousOutcomeResult where
  | expired
  | notAwaitingProviderResult
  deriving DecidableEq

inductive PermanentProviderFailureStatus where
  | rejected
  | undelivered

def PermanentProviderFailureStatus.status : PermanentProviderFailureStatus → SmsStatus
  | .rejected => .rejected
  | .undelivered => .undelivered

inductive DeliveryTerminalStatus where
  | delivered
  | undelivered
  | rejected
  deriving DecidableEq

def DeliveryTerminalStatus.status : DeliveryTerminalStatus → SmsStatus
  | .delivered => .delivered
  | .undelivered => .undelivered
  | .rejected => .rejected

structure ScheduleRetryOptions where
  incrementRound : Bool
  delayMs : ℚ
  lastError : Option String

/-- The part of an outbox row that tells what is to be done. -/
structure OutboxIntent where
  eventType : String
  payload : Json

/-- The outbox row that records an intent about a message. -/
def OutboxIntent.row (intent : OutboxIntent) (messageId : String) (c : Choice) : OutboxEvent :=
  { id := c.uuid
    aggregateType := "SMS_MESSAGE"
    aggregateId := messageId
    eventType := intent.eventType
    payload := intent.payload
    publishedAt := none
    retryCount := 0
    lastError := none
    createdAt := c.now
    updatedAt := c.now }

def messagePayload (messageId : String) : Json :=
  .obj [("messageId", .str messageId)]

def delayedPayload (messageId : String) (delayMs : ℚ) : Json :=
  .obj [("messageId", .str messageId), ("delayMs", .num delayMs)]

/-- The outbox row inserted beside a status change. -/
def createOutboxEvent (messageId : String) (intent : OutboxIntent) : Sql OutboxEvent :=
  outboxEvent.create (intent.row messageId)

def readLifecycle (messageId : String) : Sql LifecycleSmsMessage := do
  match ← Tx.read fun _ s => smsMessage.find s messageId with
  | none => .abort (.messageNotFound messageId)
  | some row => return lifecycleSelect row

/-- The unpublished events, oldest first. -/
def unpublished (limit : Nat) (c : Choice) (s : Database) : List UnpublishedOutboxEvent :=
  let events := unordered c OutboxEvent.id
    (outboxEvent.rows s fun row => row.publishedAt.isNone)
  ((events.insertionSort fun a b => a.createdAt ≤ b.createdAt).take limit).map unpublishedSelect

def fetchUnpublishedOutbox (limit : Nat) : Sql (List UnpublishedOutboxEvent) :=
  Tx.read (unpublished limit)

/-- `update`, which rejects where there is no such row. -/
def updateOutboxEvent (outboxEventId : String) (data : Choice → OutboxEvent → OutboxEvent) :
    Sql Unit := do
  let count ← outboxEvent.updateMany outboxEventId (fun _ => true) data
  if count = 0 then .abort .recordNotFound else return ()

def markOutboxPublished (outboxEventId : String) : Sql Unit :=
  updateOutboxEvent outboxEventId fun c row =>
    { row with publishedAt := some c.now, updatedAt := c.now }

def recordOutboxPublishFailure (outboxEventId error : String) : Sql Unit :=
  updateOutboxEvent outboxEventId fun c row =>
    { row with retryCount := row.retryCount + 1, lastError := some error, updatedAt := c.now }

def beginProcessingFrom : List SmsStatus :=
  [.queued, .retryScheduled]

def beginProcessing (messageId : String) : Sql BeginProcessingResult := do
  let claimed ← smsMessage.updateMany messageId
    (fun row => beginProcessingFrom.contains row.status)
    fun c row => { row with status := .processing, updatedAt := c.now }
  if claimed = 0 then
    return .notStartable
  else
    let message ← readLifecycle messageId
    return .started message

/-- The query of the recovery sweep. -/
def staleCandidates (cutoff : Int) (limit : Nat) : Sql (List String) :=
  Tx.read fun c s =>
    let candidates := unordered c SmsMessage.id
      (smsMessage.rows s fun row => row.status = .processing && row.updatedAt < cutoff)
    ((candidates.insertionSort fun a b => a.updatedAt ≤ b.updatedAt).take limit).map
      SmsMessage.id

def processingRecovered (messageId : String) : OutboxIntent :=
  ⟨"SMS_PROCESSING_RECOVERED", messagePayload messageId⟩

/-- The transaction of the recovery sweep for one candidate. -/
def recoverCandidate (cutoff : Int) (candidate : String) : Sql Bool := do
  let updated ← smsMessage.updateMany candidate
    (fun row => row.status = .processing && row.updatedAt < cutoff)
    fun c row => { row with status := .retryScheduled, updatedAt := c.now }
  if updated = 0 then
    return false
  else
    let _ ← createOutboxEvent candidate (processingRecovered candidate)
    return true

/-- The reservation that `reserveProviderAttempt` inserts. -/
def reservation (messageId providerName : String) (c : Choice) : SmsAttempt :=
  { id := c.uuid
    smsMessageId := messageId
    provider := providerName
    providerMessageId := none
    outcome := .reserved
    isRetryable := false
    isAmbiguous := true
    errorMessage := none
    createdAt := c.now }

def reserveProviderAttempt (messageId providerName : String) :
    Sql ReserveProviderAttemptResult := do
  let reserved ← smsMessage.updateMany messageId (fun row => row.status = .processing)
    fun c row => { row with
      status := .awaitingProviderResult
      selectedProvider := some providerName
      deliveryAttempts := row.deliveryAttempts + 1
      updatedAt := c.now }
  if reserved = 0 then
    return .notReservable
  else
    let attempt ← smsAttempt.create (reservation messageId providerName)
    return .reserved attempt.id

namespace FinalizeProviderAttemptInput

def outcome : FinalizeProviderAttemptInput → SmsAttemptOutcome
  | accepted _ => .accepted
  | failed _ _ _ _ => .failed

def isAmbiguous : FinalizeProviderAttemptInput → Bool
  | accepted _ => false
  | failed isAmbiguous _ _ _ => isAmbiguous

/-- The attempt row with the observed result. -/
def record (input : FinalizeProviderAttemptInput) (row : SmsAttempt) : SmsAttempt :=
  match input with
  | accepted providerMessageId =>
      { row with
        outcome := .accepted
        isRetryable := false
        isAmbiguous := false
        providerMessageId := some providerMessageId }
  | failed isAmbiguous isRetryable errorMessage _ =>
      { row with
        outcome := .failed
        isRetryable := isRetryable
        isAmbiguous := isAmbiguous
        errorMessage := some errorMessage }

end FinalizeProviderAttemptInput

/-- An integer greater than zero. -/
def isPositiveInteger (ms : ℚ) : Bool :=
  ms.den = 1 && 0 < ms

def ambiguousOutcomeExpiryScheduled (messageId : String) (delayMs : ℚ) : OutboxIntent :=
  ⟨"SMS_AMBIGUOUS_OUTCOME_EXPIRY_SCHEDULED", delayedPayload messageId delayMs⟩

/-- The update of a message that still awaits its provider result, or else a
rejection. -/
def leaveAwaiting (messageId : String) (target : SmsStatus)
    (data : Choice → SmsMessage → SmsMessage) : Sql Unit := do
  let count ← smsMessage.updateMany messageId
    (fun row => row.status = .awaitingProviderResult) data
  if count = 0 then
    .abort (.concurrentModification messageId .awaitingProviderResult target)
  else
    return ()

def finalizeProviderAttempt (messageId attemptId : String)
    (input : FinalizeProviderAttemptInput) : Sql Unit := do
  let finalized ← smsAttempt.updateMany attemptId
    (fun row => row.smsMessageId = messageId && row.outcome = .reserved)
    fun _ row => input.record row
  if finalized = 0 then
    .abort (.concurrentModification messageId .awaitingProviderResult .sent)
  else
    match input with
    | .accepted providerMessageId =>
        leaveAwaiting messageId .sent fun c row =>
          { row with
            status := .sent, providerMessageId := some providerMessageId, updatedAt := c.now }
    | .failed true _ _ delayMs =>
        match delayMs.filter isPositiveInteger with
        | none => .abort .invalidExpiry
        | some delayMs =>
            let _ ← createOutboxEvent messageId
              (ambiguousOutcomeExpiryScheduled messageId delayMs)
            return ()
    | .failed false _ _ _ =>
        leaveAwaiting messageId .processing fun c row =>
          { row with status := .processing, updatedAt := c.now }

/-- The pattern `/^SM[0-9a-f]{32}$/i`. -/
def isTwilioMessageSid (sid : String) : Bool :=
  match sid.toList with
  | a :: b :: rest =>
      a.toLower = 's' && b.toLower = 'm' && rest.length = 32 &&
        rest.all fun ch => ch.isDigit || ('a' ≤ ch.toLower && ch.toLower ≤ 'f')
  | _ => false

/-- The check before the transaction, as the call's first step. -/
def assertValidTwilioResolution (input : ResolveTwilioAttemptInput) : Sql Unit := do
  Tx.read fun _ _ => ()
  match input with
  | .knownSid providerMessageId =>
      if isTwilioMessageSid providerMessageId then return () else .abort .invalidTwilioResolution
  | .undelivered _ => return ()

namespace ResolveTwilioAttemptInput

def resolution : ResolveTwilioAttemptInput → SmsAttemptResolutionType
  | knownSid _ => .knownSid
  | undelivered _ => .undelivered

def providerMessageId : ResolveTwilioAttemptInput → Option String
  | knownSid providerMessageId => some providerMessageId
  | undelivered _ => none

def evidenceCode : ResolveTwilioAttemptInput → Option SmsUndeliveredEvidenceCode
  | knownSid _ => none
  | undelivered evidenceCode => some evidenceCode

/-- The message row once the decision is applied. -/
def apply (input : ResolveTwilioAttemptInput) (c : Choice) (row : SmsMessage) : SmsMessage :=
  match input with
  | knownSid providerMessageId =>
      { row with
        status := .sent, providerMessageId := some providerMessageId, updatedAt := c.now }
  | undelivered .twilioUndeliveredConfirmed =>
      { row with
        status := .undelivered
        lastError := some "Resolved as undelivered: TWILIO_UNDELIVERED_CONFIRMED"
        updatedAt := c.now }

/-- The audit row of the decision. -/
def row (input : ResolveTwilioAttemptInput) (messageId attemptId : String) (c : Choice) :
    SmsAttemptResolution :=
  { id := c.uuid
    smsMessageId := messageId
    smsAttemptId := attemptId
    resolution := input.resolution
    providerMessageId := input.providerMessageId
    evidenceCode := input.evidenceCode
    createdAt := c.now }

end ResolveTwilioAttemptInput

def matchesResolution (existing : SmsAttemptResolution) (input : ResolveTwilioAttemptInput) :
    Bool :=
  existing.resolution = input.resolution &&
    existing.providerMessageId = input.providerMessageId &&
    existing.evidenceCode = input.evidenceCode

/-- The answer where the attempt already has a decision. -/
def answerExisting (messageId : String) (existing : SmsAttemptResolution)
    (input : ResolveTwilioAttemptInput) : Sql ResolveTwilioAttemptResult := do
  if matchesResolution existing input then
    let message ← readLifecycle messageId
    return .alreadyResolved message
  else
    return .conflict

/-- The attempts that `resolveTwilioAttempt` may decide on. -/
def isResolvable (messageId : String) (attempt : SmsAttempt) : Bool :=
  attempt.smsMessageId = messageId && attempt.provider = "twilio" && attempt.isAmbiguous

/-- The rest of a resolution once the attempt has been found fit for it. -/
def applyDecision (messageId attemptId : String) (input : ResolveTwilioAttemptInput) :
    Sql ResolveTwilioAttemptResult := do
  let updated ← smsMessage.updateMany messageId
    (fun row => row.status = .awaitingProviderResult) input.apply
  if updated = 0 then
    match ← Tx.read fun _ s => smsAttemptResolution.find s attemptId with
    | some concurrent => answerExisting messageId concurrent input
    | none => return .conflict
  else
    let _ ← smsAttemptResolution.create (input.row messageId attemptId)
    let message ← readLifecycle messageId
    return .resolved message

def resolveTwilioAttempt (messageId attemptId : String) (input : ResolveTwilioAttemptInput) :
    Sql ResolveTwilioAttemptResult := do
  assertValidTwilioResolution input
  match ← Tx.read fun _ s => smsMessage.find s messageId with
  | none => return .notFound
  | some current =>
      match ← Tx.read fun _ s => smsAttemptResolution.find s attemptId with
      | some existing => answerExisting messageId existing input
      | none =>
          if current.status ≠ .awaitingProviderResult then
            return .notAwaitingProviderResult current.status
          else
            let attempt ← Tx.read fun _ s => smsAttempt.find s attemptId
            if !attempt.any (isResolvable messageId) then
              return .invalidAttempt
            else
              applyDecision messageId attemptId input

/-- The transition that the state machine guards: the status is read, checked
against the table and expected by the update. -/
def guardedTransition (messageId : String) (target : SmsStatus)
    (data : SmsMessage → SmsMessage) (outboxIntent : Option OutboxIntent) :
    Sql LifecycleSmsMessage := do
  match ← Tx.read fun _ s => smsMessage.find s messageId with
  | none => .abort (.messageNotFound messageId)
  | some current =>
      if !isValidTransition current.status target then
        .abort (.invalidTransition current.status target)
      else
        let updated ← smsMessage.updateMany messageId (fun row => row.status = current.status)
          fun c row => { data row with status := target, updatedAt := c.now }
        if updated = 0 then
          .abort (.concurrentModification messageId current.status target)
        else
          match outboxIntent with
          | some intent =>
              let _ ← createOutboxEvent messageId intent
              readLifecycle messageId
          | none => readLifecycle messageId

def ScheduleRetryOptions.data (opts : ScheduleRetryOptions) (row : SmsMessage) : SmsMessage :=
  { row with
    deliveryAttempts := row.deliveryAttempts + 1
    retryRounds := if opts.incrementRound then row.retryRounds + 1 else row.retryRounds
    lastError := opts.lastError.orElse fun _ => row.lastError }

def retryScheduled (messageId : String) (delayMs : ℚ) : OutboxIntent :=
  ⟨"SMS_RETRY_SCHEDULED", delayedPayload messageId delayMs⟩

def scheduleRetry (messageId : String) (opts : ScheduleRetryOptions) : Sql LifecycleSmsMessage :=
  guardedTransition messageId .retryScheduled opts.data
    (some (retryScheduled messageId opts.delayMs))

def markPermanentProviderFailure (messageId : String) (status : PermanentProviderFailureStatus)
    (lastError : String) : Sql LifecycleSmsMessage :=
  guardedTransition messageId status.status
    (fun row => { row with lastError := some lastError }) none

def deadLettered (messageId : String) : OutboxIntent :=
  ⟨"SMS_DEAD_LETTERED", messagePayload messageId⟩

def markFatalFailure (messageId lastError : String) : Sql LifecycleSmsMessage :=
  guardedTransition messageId .fatalFailure
    (fun row => { row with lastError := some lastError }) (some (deadLettered messageId))

def expireAmbiguousOutcome (messageId : String) : Sql ExpireAmbiguousOutcomeResult := do
  let updated ← smsMessage.updateMany messageId
    (fun row => row.status = .awaitingProviderResult)
    fun c row => { row with
      status := .undelivered
      lastError := some "AMBIGUOUS_OUTCOME_EXPIRED"
      updatedAt := c.now }
  return if updated = 1 then .expired else .notAwaitingProviderResult

def requeued (messageId : String) : OutboxIntent :=
  ⟨"SMS_REQUEUED", messagePayload messageId⟩

def resetForRequeue (messageId : String) : Sql ResetForRequeueResult := do
  match ← Tx.read fun _ s => smsMessage.find s messageId with
  | none => return .notFound
  | some current =>
      if current.status ≠ .fatalFailure then
        return .notFatal current.status
      else
        let updated ← smsMessage.updateMany messageId (fun row => row.status = .fatalFailure)
          fun c row => { row with
            status := .retryScheduled, retryRounds := 0, lastError := none, updatedAt := c.now }
        if updated = 0 then
          return .notFatal current.status
        else
          let _ ← createOutboxEvent messageId (requeued messageId)
          let message ← readLifecycle messageId
          return .requeued message

structure ApplyDeliveryReportInput where
  providerMessageId : String
  terminalStatus : DeliveryTerminalStatus

def applyDeliveryReport (input : ApplyDeliveryReportInput) : Sql ApplyDeliveryReportResult := do
  match ← Tx.read fun c s =>
      (unordered c SmsMessage.id (smsMessage.rows s fun row =>
        row.providerMessageId = some input.providerMessageId)).head? with
  | none => return .notFound
  | some current =>
      let target := input.terminalStatus.status
      if isSameState current.status target then
        let message ← readLifecycle current.id
        return .duplicate message
      else if !isValidTransition current.status target then
        return .invalidTransition current.status
      else
        let updated ← smsMessage.updateMany current.id
          (fun row => row.status = current.status)
          fun c row => { row with status := target, updatedAt := c.now }
        if updated = 0 then
          return .invalidTransition current.status
        else
          let message ← readLifecycle current.id
          return .applied message

end SmsNotification.SmsLifecycleRepository
