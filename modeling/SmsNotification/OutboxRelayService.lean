import SmsNotification.SmsLifecycleRepository
import SmsNotification.Surroundings

namespace SmsNotification.OutboxRelayService

open SmsNotification.QueueConstants
open SmsNotification.Schema
open SmsNotification.SmsLifecycleRepository
open SmsNotification.Surroundings

/-- An integer that is not negative. -/
def isDelay (ms : ℚ) : Bool :=
  ms.den = 1 && 0 ≤ ms

/-- The payload of an event, or the text of the error. -/
def readDispatchPayload (payload : Json) (aggregateId : String) :
    Except String (String × Option ℚ) :=
  match payload with
  | .obj _ | .arr _ =>
      match payload.field "messageId" with
      | some (.str messageId) =>
          match payload.field "delayMs" with
          | none => .ok (messageId, none)
          | some (.num delayMs) =>
              if isDelay delayMs then .ok (messageId, some delayMs)
              else .error ("Outbox event " ++ aggregateId ++ " has an invalid delayMs")
          | some _ => .error ("Outbox event " ++ aggregateId ++ " has an invalid delayMs")
      | _ => .error ("Outbox event " ++ aggregateId ++ " is missing messageId")
  | _ => .error ("Outbox event " ++ aggregateId ++ " has an invalid payload")

/-- The job for an event, before it gets its id. -/
structure QueueJob where
  queue : QueueName
  name : String
  messageId : String
  delay : Option ℚ

def queueJobFor (event : UnpublishedOutboxEvent) : Except String QueueJob :=
  match readDispatchPayload event.payload event.aggregateId with
  | .error message => .error message
  | .ok (messageId, delayMs) =>
      if event.eventType = "SMS_RETRY_SCHEDULED" then
        match delayMs with
        | none => .error ("Retry outbox event " ++ event.aggregateId ++ " is missing delayMs")
        | some delayMs => .ok ⟨.smsDispatch, "retry", messageId, some delayMs⟩
      else if event.eventType = "SMS_MESSAGE_QUEUED" then
        .ok ⟨.smsDispatch, "dispatch", messageId, none⟩
      else if event.eventType = "SMS_DEAD_LETTERED" then
        .ok ⟨.smsDlq, "dead-letter", messageId, none⟩
      else if event.eventType = "SMS_REQUEUED" then
        .ok ⟨.smsDispatch, "requeue", messageId, none⟩
      else if event.eventType = "SMS_PROCESSING_RECOVERED" then
        .ok ⟨.smsDispatch, "recovered", messageId, none⟩
      else if event.eventType = "SMS_AMBIGUOUS_OUTCOME_EXPIRY_SCHEDULED" then
        match delayMs with
        | none =>
            .error ("Ambiguous-outcome expiry event " ++ event.aggregateId ++
              " is missing delayMs")
        | some delayMs => .ok ⟨.smsMaintenance, ambiguousOutcomeExpiryJob, messageId, some delayMs⟩
      else .error ("Unsupported outbox event type " ++ event.eventType)

/-- The id of the job for an event of a message. -/
def jobIdFor (messageId eventId : String) : String :=
  messageId ++ "#" ++ eventId

/-- The job that is added for an event. -/
def QueueJob.toJob (queueJob : QueueJob) (eventId : String) : Job :=
  { queue := queueJob.queue
    jobId := jobIdFor queueJob.messageId eventId
    name := queueJob.name
    messageId := some queueJob.messageId
    delay := queueJob.delay }

inductive State where
  | fetching (batchSize : Nat)
  | adding (event : UnpublishedOutboxEvent) (queueJob : QueueJob)
      (rest : List UnpublishedOutboxEvent)
  | marking (event : UnpublishedOutboxEvent) (rest : List UnpublishedOutboxEvent)
  | recording (event : UnpublishedOutboxEvent) (description : String)
      (rest : List UnpublishedOutboxEvent)
  | drained
  | tickFailed
  | crashed

/-- The loop over the events of a batch. -/
def relay : List UnpublishedOutboxEvent → State
  | [] => .drained
  | event :: rest =>
      match queueJobFor event with
      | .error description => .recording event description rest
      | .ok queueJob => .adding event queueJob rest

end SmsNotification.OutboxRelayService
