import SmsNotification.Schema

namespace SmsNotification.RetentionService

open SmsNotification.KeyedStore
open SmsNotification.ReadCommitted
open SmsNotification.Schema
open SmsNotification.SmsStateMachine

def terminalStatuses : List SmsStatus :=
  [.delivered, .undelivered, .rejected, .fatalFailure]

/-- The messages whose retention has elapsed, at most a batch of them. -/
def expiredIds (now : Int) (batchSize : Nat) : Sql (List String) :=
  Tx.read fun c s =>
    let expired := unordered c SmsMessage.id (smsMessage.rows s fun row =>
      row.retentionExpiresAt ≤ now && terminalStatuses.contains row.status)
    (expired.take batchSize).map SmsMessage.id

/-- `deleteMany` of the records of a child table that belong to one of the
messages. It removes the records it has found and not ones that have come to
their ids since. -/
def deleteChildren {α : Type} (t : Table α) (messageId : α → String) (ids : List String) :
    Sql Nat := do
  let found ← Tx.read fun _ s => t.rows s fun row => ids.contains (messageId row)
  Tx.deleteMany (found.map fun row => t.keyOf (t.idOf row)) fun row =>
    (t.unwrap row).any fun row =>
      found.any fun old => t.idOf old = t.idOf row && messageId old = messageId row

/-- The attempts to delete that are still there. -/
def attemptsLeft (s : Database) (found : List SmsAttempt) : List SmsAttempt :=
  found.filter fun old =>
    (smsAttempt.find s old.id).any fun row => row.smsMessageId = old.smsMessageId

/-- A resolution refers to the attempt. -/
def isResolved (s : Database) (attempt : SmsAttempt) : Bool :=
  (smsAttemptResolution.find s attempt.id).isSome

/-- `deleteMany` of the attempts that belong to one of the messages: the foreign key
of the resolutions restricts it. -/
def deleteAttempts (ids : List String) : Sql Nat := do
  let found ← Tx.read fun _ s => smsAttempt.rows s fun row => ids.contains row.smsMessageId
  .stmt
    (fun _ s =>
      if (attemptsLeft s found).any (isResolved s) then []
      else (attemptsLeft s found).map fun attempt => .delete (.attempt attempt.id))
    fun _ s =>
      if (attemptsLeft s found).any (isResolved s) then .abort .foreignKeyViolation
      else .done (attemptsLeft s found).length

/-- A record of one of the tables with `onDelete: Restrict` refers to the message. -/
def isReferenced (s : Database) (id : String) : Bool :=
  (smsAttemptResolution.rows s fun row => row.smsMessageId = id).length +
    (smsAttempt.rows s fun row => row.smsMessageId = id).length +
    (outboxEvent.rows s fun row => row.aggregateId = id).length ≠ 0

/-- The messages to delete that are still there. -/
def present (s : Database) (ids : List String) : List String :=
  ids.filter fun id => (smsMessage.find s id).isSome

/-- `deleteMany` of the messages: the foreign keys restrict it, and it cascades
to the idempotency keys. -/
def deleteMessages (ids : List String) : Sql Nat :=
  .stmt
    (fun _ s =>
      if (present s ids).any (isReferenced s) then []
      else
        (present s ids).map (fun id => .delete (.message id)) ++
          (smsIdempotencyKey.rows s fun row => (present s ids).contains row.smsMessageId).map
            fun row => .delete (.idempotencyKey row.key))
    fun _ s =>
      if (present s ids).any (isReferenced s) then .abort .foreignKeyViolation
      else .done (present s ids).length

def purgeExpired (now : Int) (batchSize : Nat) : Sql Nat := do
  let ids ← expiredIds now batchSize
  if ids.isEmpty then
    return 0
  else
    let _ ← deleteChildren smsAttemptResolution SmsAttemptResolution.smsMessageId ids
    let _ ← deleteAttempts ids
    let _ ← deleteChildren outboxEvent OutboxEvent.aggregateId ids
    deleteMessages ids

end SmsNotification.RetentionService
