import Mathlib.Logic.Function.Basic
import SmsNotification.SmsPersistenceRepository

/-!
The database as one aggregate for each message: the message with its attempts,
resolutions and outbox rows. Every insert and update of the repositories changes
the aggregate of one message only, and this module says how.
-/

namespace SmsNotification.MessageAggregate

open SmsNotification.KeyedStore
open SmsNotification.ReadCommitted
open SmsNotification.Schema
open SmsNotification.SmsStateMachine

/-- A message with the rows that refer to it, each list in creation order. -/
@[ext] structure Aggregate where
  message : Option SmsMessage
  attempts : List SmsAttempt
  resolutions : List SmsAttemptResolution
  outbox : List OutboxEvent

/-- The aggregate of a message id. -/
def aggregate (s : Database) (messageId : String) : Aggregate :=
  { message := smsMessage.find s messageId
    attempts := smsAttempt.rows s fun row => row.smsMessageId = messageId
    resolutions := smsAttemptResolution.rows s fun row => row.smsMessageId = messageId
    outbox := outboxEvent.rows s fun row => row.aggregateId = messageId }

/-- The status of a message, none where there is no such message. -/
def Aggregate.status (A : Aggregate) : Option SmsStatus :=
  A.message.map SmsMessage.status

theorem aggregate_empty (m : String) :
    aggregate (Store.empty Row.key) m = ⟨none, [], [], []⟩ := by
  simp [aggregate, Table.find, Table.rows]

theorem mem_attempts_iff {s : Database} {m : String} {a : SmsAttempt} :
    a ∈ (aggregate s m).attempts ↔ smsAttempt.find s a.id = some a ∧ a.smsMessageId = m := by
  simp [aggregate, Table.mem_rows_iff]

theorem mem_resolutions_iff {s : Database} {m : String} {r : SmsAttemptResolution} :
    r ∈ (aggregate s m).resolutions ↔
      smsAttemptResolution.find s r.smsAttemptId = some r ∧ r.smsMessageId = m := by
  simp [aggregate, Table.mem_rows_iff]

theorem mem_outbox_iff {s : Database} {m : String} {e : OutboxEvent} :
    e ∈ (aggregate s m).outbox ↔ outboxEvent.find s e.id = some e ∧ e.aggregateId = m := by
  simp [aggregate, Table.mem_rows_iff]

/-- The rows of an aggregate are kept apart by their ids. -/
structure Aggregate.Keyed (A : Aggregate) : Prop where
  attempts : (A.attempts.map SmsAttempt.id).Nodup
  resolutions : (A.resolutions.map SmsAttemptResolution.smsAttemptId).Nodup
  outbox : (A.outbox.map OutboxEvent.id).Nodup

theorem keyed (s : Database) (m : String) : (aggregate s m).Keyed :=
  ⟨smsAttempt.rows_nodup s _, smsAttemptResolution.rows_nodup s _, outboxEvent.rows_nodup s _⟩

theorem aggregate_put_message (s : Database) (row : SmsMessage) :
    aggregate (s.apply (.put (smsMessage.wrap row))) = Function.update (aggregate s) row.id
      { aggregate s row.id with message := some row } := by
  funext m
  by_cases hm : m = row.id
  · subst hm
    simp (disch := decide) [aggregate, Table.rows_put_other, Table.find_put]
  · rw [Function.update_of_ne hm]
    simp (disch := decide) [aggregate, Table.rows_put_other, Table.find_put, Ne.symm hm]

theorem aggregate_create_attempt {s : Database} {row : SmsAttempt}
    (h : smsAttempt.find s row.id = none) :
    aggregate (s.apply (.put (smsAttempt.wrap row))) =
      Function.update (aggregate s) row.smsMessageId
        { aggregate s row.smsMessageId with
          attempts := (aggregate s row.smsMessageId).attempts ++ [row] } := by
  funext m
  have hcreate := fun keep => smsAttempt.rows_create (x := row) keep h
  by_cases hm : m = row.smsMessageId
  · subst hm
    simp (disch := decide) [aggregate, Table.rows_put_other, Table.find_put_other, hcreate]
  · rw [Function.update_of_ne hm]
    simp (disch := decide) [aggregate, Table.rows_put_other, Table.find_put_other, hcreate,
      Ne.symm hm]

theorem aggregate_update_attempt {s : Database} {row old : SmsAttempt}
    (h : smsAttempt.find s row.id = some old) (hsame : row.smsMessageId = old.smsMessageId) :
    aggregate (s.apply (.put (smsAttempt.wrap row))) =
      Function.update (aggregate s) row.smsMessageId
        { aggregate s row.smsMessageId with
          attempts := smsAttempt.replace row (aggregate s row.smsMessageId).attempts } := by
  funext m
  by_cases hm : m = row.smsMessageId
  · subst hm
    have hupdate := smsAttempt.rows_update (x := row)
      (fun a => a.smsMessageId = row.smsMessageId) h (by simp [hsame])
    simp (disch := decide) [aggregate, Table.rows_put_other, Table.find_put_other, hupdate]
  · have hupdate := smsAttempt.rows_update_dropped (x := row)
      (fun a => a.smsMessageId = m) h (by simp [Ne.symm hm])
      (by simp [← hsame, Ne.symm hm])
    rw [Function.update_of_ne hm]
    simp (disch := decide) [aggregate, Table.rows_put_other, Table.find_put_other, hupdate]

theorem aggregate_create_resolution {s : Database} {row : SmsAttemptResolution}
    (h : smsAttemptResolution.find s row.smsAttemptId = none) :
    aggregate (s.apply (.put (smsAttemptResolution.wrap row))) =
      Function.update (aggregate s) row.smsMessageId
        { aggregate s row.smsMessageId with
          resolutions := (aggregate s row.smsMessageId).resolutions ++ [row] } := by
  funext m
  have hcreate := fun keep => smsAttemptResolution.rows_create (x := row) keep h
  by_cases hm : m = row.smsMessageId
  · subst hm
    simp (disch := decide) [aggregate, Table.rows_put_other, Table.find_put_other, hcreate]
  · rw [Function.update_of_ne hm]
    simp (disch := decide) [aggregate, Table.rows_put_other, Table.find_put_other, hcreate,
      Ne.symm hm]

theorem aggregate_create_outbox {s : Database} {row : OutboxEvent}
    (h : outboxEvent.find s row.id = none) :
    aggregate (s.apply (.put (outboxEvent.wrap row))) =
      Function.update (aggregate s) row.aggregateId
        { aggregate s row.aggregateId with
          outbox := (aggregate s row.aggregateId).outbox ++ [row] } := by
  funext m
  have hcreate := fun keep => outboxEvent.rows_create (x := row) keep h
  by_cases hm : m = row.aggregateId
  · subst hm
    simp (disch := decide) [aggregate, Table.rows_put_other, Table.find_put_other, hcreate]
  · rw [Function.update_of_ne hm]
    simp (disch := decide) [aggregate, Table.rows_put_other, Table.find_put_other, hcreate,
      Ne.symm hm]

theorem aggregate_update_outbox {s : Database} {row old : OutboxEvent}
    (h : outboxEvent.find s row.id = some old) (hsame : row.aggregateId = old.aggregateId) :
    aggregate (s.apply (.put (outboxEvent.wrap row))) =
      Function.update (aggregate s) row.aggregateId
        { aggregate s row.aggregateId with
          outbox := outboxEvent.replace row (aggregate s row.aggregateId).outbox } := by
  funext m
  by_cases hm : m = row.aggregateId
  · subst hm
    have hupdate := outboxEvent.rows_update (x := row)
      (fun e => e.aggregateId = row.aggregateId) h (by simp [hsame])
    simp (disch := decide) [aggregate, Table.rows_put_other, Table.find_put_other, hupdate]
  · have hupdate := outboxEvent.rows_update_dropped (x := row)
      (fun e => e.aggregateId = m) h (by simp [Ne.symm hm])
      (by simp [← hsame, Ne.symm hm])
    rw [Function.update_of_ne hm]
    simp (disch := decide) [aggregate, Table.rows_put_other, Table.find_put_other, hupdate]

theorem aggregate_of_idempotencyKey (s : Database) {w : Write Row.key}
    (h : w.target.table = .smsIdempotencyKeys) : aggregate (s.apply w) = aggregate s := by
  have hne : ∀ name : TableName, name ≠ .smsIdempotencyKeys → w.target.table ≠ name :=
    fun name hname hw => hname (hw.symm.trans h)
  funext m
  rw [aggregate, Table.find_other _ _ (hne _ (by decide)),
    Table.rows_other _ (hne _ (by decide)), Table.rows_other _ (hne _ (by decide)),
    Table.rows_other _ (hne _ (by decide)), aggregate]

end SmsNotification.MessageAggregate
