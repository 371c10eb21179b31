import Mathlib.Data.List.Basic

namespace SmsNotification.SmsStateMachine

inductive SmsStatus where
  | queued
  | processing
  | awaitingProviderResult
  | retryScheduled
  | sent
  | delivered
  | undelivered
  | rejected
  | fatalFailure
  deriving DecidableEq, Repr

open SmsStatus

/-- The name of a status in the database. -/
def SmsStatus.name : SmsStatus → String
  | queued => "QUEUED"
  | processing => "PROCESSING"
  | awaitingProviderResult => "AWAITING_PROVIDER_RESULT"
  | retryScheduled => "RETRY_SCHEDULED"
  | sent => "SENT"
  | delivered => "DELIVERED"
  | undelivered => "UNDELIVERED"
  | rejected => "REJECTED"
  | fatalFailure => "FATAL_FAILURE"

/-- The statuses each status may move to; none for a terminal status. -/
def transitionTable : SmsStatus → List SmsStatus
  | queued => [processing]
  | retryScheduled => [processing]
  | processing =>
      [awaitingProviderResult, retryScheduled, rejected, undelivered, fatalFailure]
  | awaitingProviderResult => [sent, delivered, undelivered, rejected, processing]
  | sent => [delivered, undelivered, rejected]
  | delivered => []
  | fatalFailure => []
  | rejected => []
  | undelivered => []

def isValidTransition (source target : SmsStatus) : Bool :=
  (transitionTable source).contains target

def isSameState (source target : SmsStatus) : Bool :=
  source = target

def isTerminal (status : SmsStatus) : Bool :=
  (transitionTable status).isEmpty

/-- The statuses that may move into `target`, in the order of the table. -/
def sourceStatesOf (target : SmsStatus) : List SmsStatus :=
  [queued, retryScheduled, processing, awaitingProviderResult, sent, delivered, fatalFailure,
    rejected, undelivered].filter fun status => isValidTransition status target

theorem isTerminal_iff {status : SmsStatus} :
    isTerminal status ↔ ∀ target, isValidTransition status target = false := by
  simp [isTerminal, isValidTransition, List.eq_nil_iff_forall_not_mem]

theorem isValidTransition_ne {source target : SmsStatus} (h : isValidTransition source target) :
    source ≠ target := by
  rintro rfl
  cases source <;> simp [isValidTransition, transitionTable] at h

end SmsNotification.SmsStateMachine
