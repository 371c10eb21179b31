import SmsNotification.SmsLifecycleRepository

namespace SmsNotification.SmsPersistenceRepository

open SmsNotification.ReadCommitted
open SmsNotification.Schema
open SmsNotification.SmsLifecycleRepository
open SmsNotification.SmsStateMachine

structure CreateSmsMessageInput where
  idempotencyKey : String
  recipientPhone : String
  encryptedMessage : String
  metadata : Option Json

structure CreateOrGetSmsMessageResult where
  created : Bool
  message : SmsMessage

def retentionLifetimeMilliseconds : Int :=
  90 * 24 * 60 * 60 * 1000

def idempotencyLifetimeMilliseconds (idempotencyTtlHours : Int) : Int :=
  idempotencyTtlHours * 60 * 60 * 1000

/-- JavaScript has dates up to this many milliseconds on either side of the epoch. -/
def maxTime : Int :=
  8640000000000000

def isTime (time : Int) : Bool :=
  -maxTime ≤ time && time ≤ maxTime

/-- A statement with a `Date` past the last one is rejected before it is sent. -/
def requireDate (time : Int) : Sql Unit :=
  Tx.require (isTime time) .invalidDate

/-- The arguments of one call. -/
structure CreateOrGetMessage where
  input : CreateSmsMessageInput
  now : Int
  idempotencyTtlHours : Int

namespace CreateOrGetMessage

variable (call : CreateOrGetMessage)

def retentionExpiresAt : Int :=
  call.now + retentionLifetimeMilliseconds

def message (c : Choice) : SmsMessage :=
  { id := c.uuid
    idempotencyKey := call.input.idempotencyKey
    recipientPhone := call.input.recipientPhone
    encryptedMessage := call.input.encryptedMessage
    metadata := call.input.metadata
    status := .queued
    selectedProvider := none
    providerMessageId := none
    lastError := none
    deliveryAttempts := 0
    retryRounds := 0
    retentionExpiresAt := call.retentionExpiresAt
    createdAt := c.now
    updatedAt := c.now }

def expiresAt : Int :=
  call.now + idempotencyLifetimeMilliseconds call.idempotencyTtlHours

def owner (messageId : String) (c : Choice) : SmsIdempotencyKey :=
  { key := call.input.idempotencyKey
    smsMessageId := messageId
    expiresAt := call.expiresAt
    createdAt := c.now }

/-- `deleteMany` of the owner that has expired. It removes the row it has found
and not one that has been inserted under the key since. -/
def deleteExpiredOwner : Sql Nat := do
  let found ← Tx.read fun _ s => smsIdempotencyKey.find s call.input.idempotencyKey
  Tx.deleteMany [.idempotencyKey call.input.idempotencyKey] fun row =>
    (smsIdempotencyKey.unwrap row).any fun owner =>
      owner.expiresAt ≤ call.now &&
        found.any fun old => owner.smsMessageId = old.smsMessageId

end CreateOrGetMessage

def messageQueued (messageId : String) : OutboxIntent :=
  ⟨"SMS_MESSAGE_QUEUED", messagePayload messageId⟩

/-- The inserts of `createOrGetMessage`. -/
def createMessage (call : CreateOrGetMessage) : Sql CreateOrGetSmsMessageResult := do
  let _ ← requireDate call.retentionExpiresAt
  let message ← smsMessage.create call.message
  let _ ← createOutboxEvent message.id (messageQueued message.id)
  let _ ← requireDate call.expiresAt
  let _ ← smsIdempotencyKey.create (call.owner message.id)
  return { created := true, message := message }

def createOrGetMessageInTransaction (call : CreateOrGetMessage) :
    Sql CreateOrGetSmsMessageResult := do
  let existingOwner ← Tx.read fun _ s =>
    (smsIdempotencyKey.find s call.input.idempotencyKey).bind fun owner =>
      (smsMessage.find s owner.smsMessageId).map fun message => (owner, message)
  match existingOwner with
  | some (owner, message) =>
      if owner.expiresAt > call.now then
        return { created := false, message := message }
      else
        let _ ← call.deleteExpiredOwner
        createMessage call
  | none => createMessage call

/-- The Prisma code P2002. -/
def isUniqueConstraintViolation (error : Failure) : Bool :=
  error = .uniqueViolation

end SmsNotification.SmsPersistenceRepository
